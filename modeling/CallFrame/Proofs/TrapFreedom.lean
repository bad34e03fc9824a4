import CallFrame.Proofs.CheckedIndex
import CallFrame.Proofs.CheckedRun
import CallFrame.Proofs.IntactPrefix
import CallFrame.Proofs.RowInvariants
import CallFrame.Proofs.TrueOffsets

/-!
Garbage does not stop the machine. The programs of an indexed function are parts of its module's
sections, so they are decoded like everything else in them, and rows have no more columns than there are
numbers for. With that the whole way from the bytes of a module to the row of a function is in order.
-/

namespace CallFrame

/-! Where programs stand. -/
section Programs

theorem window_within {area : Section} {endian : Endian} {start stop : Nat} (ordered : start ≤ stop)
    (inside : stop ≤ area.data.length) : (area.window endian start stop).Within area.data.length := by
  change start + (area.between start stop).length ≤ _
  rw [between_length inside]
  omega

/-- Both programs of a function can be decoded. -/
theorem function_decodes {module : LoadedModule}
    (small : ∀ area ∈ module.sections, area.data.length < 2 ^ 28) {f : CfiEntry}
    (member : f ∈ module.functions) : f.Decodes := by
  obtain ⟨area, home, -, shared, own, begun, inside, begun', inside', common, function⟩ := programs_stand member
  have common_within : (area.window f.endian f.cie.programOffset shared).Within _ := window_within begun inside
  have function_within : (area.window f.endian f.fde.programOffset own).Within _ := window_within begun' inside'
  rw [← common] at common_within
  rw [← function] at function_within
  exact ⟨decode_checked (small area home) _ common_within, decode_checked (small area home) _ function_within⟩

end Programs

/-! How many columns rows have. -/
section Columns

theorem set_rule_columns (row : Row) (r : Register) (rule : RegisterRule)
    (few : row.rules.size ≤ Checked.columnLimit) :
    (row.setRule r rule).rules.size ≤ Checked.columnLimit := by
  have numbered : r.number.toNat < 2 ^ 16 := r.number.toNat_lt
  rw [Row.size_set_rule]
  unfold Checked.columnLimit at few ⊢
  omega

theorem columns_stable (target : Target) :
    Stable target fun row => row.rules.size ≤ Checked.columnLimit where
  cfa _ _ few := few
  defined row r rule few _ _ := set_rule_columns row r rule few
  restored row _ r few _ _ := set_rule_columns row r _ few

end Columns

/-- Whatever the sections of a module hold, indexing it, looking an address up and interpreting what is
found do not stop the machine. The outcomes are those that they have elsewhere, no row has more columns
than there are numbers for, and listing it cuts none. -/
theorem garbage_never_traps (module : LoadedModule)
    (small : ∀ area ∈ module.sections, area.data.length < 2 ^ 28) :
    Checked.index module = .ok (module.index.1.apart, module.index.2) ∧
    ∀ lookup : UInt64, Checked.find module.index.1.apart lookup = .ok (module.index.1.find lookup) ∧
      ∀ entry, module.index.1.find lookup = some entry →
        ∀ (target : Target) (initReg : Register → RegisterRule) (pc : UInt64),
          Checked.execute target entry initReg pc = .ok (execute target entry initReg pc) ∧
          (execute target entry initReg pc).1.row.rules.size ≤ Checked.columnLimit ∧
          Checked.specified (execute target entry initReg pc).1.row =
            .ok (execute target entry initReg pc).1.row.specified := by
  refine ⟨index_checked module small, fun lookup => ⟨find_checked module lookup, ?_⟩⟩
  intro entry found target initReg pc
  have member : entry ∈ module.functions := by
    rw [module_find] at found
    exact List.mem_reverse.mp (List.mem_of_find?_eq_some found)
  have few : (execute target entry initReg pc).1.row.rules.size ≤ Checked.columnLimit := by
    apply execute_row (columns_stable target)
    simp only [CfiEntry.seed, Array.size_map, Array.size_range]
    exact seed_count_le_limit target entry
  exact ⟨execute_checked target entry (function_decodes small member) initReg pc, few,
    specified_checked _ few⟩

def cutModule : LoadedModule := LoadedModule.withSection { name := "cut" } (soundUpTo37 [0xff, 0xff])

def plainTarget : Target where
  name := "plain"
  addressSize := 8
  endian := .little
  numRegs := 17
  pc := ⟨16⟩
  sp := ⟨7⟩

theorem garbage_never_traps_cut_module :
    (∀ area ∈ cutModule.sections, area.data.length < 2 ^ 28) ∧
    ∃ entry : CfiEntry, entry.fde.offset = 20 ∧
      Checked.find cutModule.index.1.apart 0x1004 = .ok (some entry) ∧
      Checked.execute plainTarget entry (fun _ => .unspecified) 0x1004 =
        .ok (execute plainTarget entry (fun _ => .unspecified) 0x1004) := by
  have small : ∀ area ∈ cutModule.sections, area.data.length < 2 ^ 28 := by decide
  obtain ⟨-, looked⟩ := garbage_never_traps cutModule small
  obtain ⟨found, interpreted⟩ := looked 0x1004
  have here : (cutModule.index.1.find 0x1004).map (·.fde.offset) = some 20 := by
    rw [module_find]
    decide +kernel
  obtain ⟨entry, entered, offset⟩ := Option.map_eq_some_iff.mp here
  rw [entered] at found
  exact ⟨small, entry, offset, found, (interpreted entry entered _ _ _).1⟩

end CallFrame
