import CallFrame.Proofs.IndexLookup

/-!
Three tests whether a function covers an address: that of the index, by run-time addresses up to an end
that is cut at the last address; that of the function, by link-time addresses up to an end that wraps;
and the range of the entry that a lookup finds, whose end wraps as well. They agree where code ends before
the last address, at link time and as it is loaded. Where it does not, they come apart.
-/

namespace CallFrame

/-! The addresses of a function. -/
section Ranges

/-- Start and length add up to an address, so that `limit` does not wrap. -/
def Fde.Unwrapped (fde : Fde) : Prop := fde.start.toNat + fde.length.toNat < 2 ^ 64

instance (fde : Fde) : Decidable fde.Unwrapped := inferInstanceAs (Decidable (_ < _))

namespace CfiEntry

def Unwrapped (entry : CfiEntry) : Prop := entry.start.toNat + entry.fde.length.toNat < 2 ^ 64

instance (entry : CfiEntry) : Decidable entry.Unwrapped := inferInstanceAs (Decidable (_ < _))

/-- The address is one of as many as the code has bytes, counted from the first on. After the last address
there is comes zero. -/
def Spans (entry : CfiEntry) (pc : UInt64) : Prop := pc - entry.start < entry.fde.length

def inRange (entry : CfiEntry) (pc : UInt64) : Bool := entry.start ≤ pc && pc < entry.limit

end CfiEntry

-- With an end that wraps there is nothing in the range.
theorem range_iff (start length pc : UInt64) :
    start ≤ pc ∧ pc < start + length ↔ pc - start < length ∧ start.toNat + length.toNat < 2 ^ 64 := by
  have first := start.toNat_lt
  have count := length.toNat_lt
  have here := pc.toNat_lt
  rw [UInt64.le_iff_toNat_le, UInt64.lt_iff_toNat_lt, UInt64.lt_iff_toNat_lt, UInt64.toNat_add, UInt64.toNat_sub]
  omega

variable (f : CfiEntry) (pc : UInt64)

theorem contains_iff : f.fde.contains (pc - f.bias) = true ↔ f.Spans pc ∧ f.fde.Unwrapped := by
  have relocated : pc - f.bias - f.fde.start = pc - f.start := by
    rw [CfiEntry.start]
    grind
  rw [Fde.contains, Bool.and_eq_true, decide_eq_true_iff, decide_eq_true_iff, Fde.limit, range_iff, relocated]
  rfl

theorem in_range_iff : f.inRange pc = true ↔ f.Spans pc ∧ f.Unwrapped := by
  have limit : f.limit = f.start + f.fde.length := by
    rw [CfiEntry.limit, Fde.limit, CfiEntry.start]
    grind
  rw [CfiEntry.inRange, Bool.and_eq_true, decide_eq_true_iff, decide_eq_true_iff, limit, range_iff]
  rfl

theorem covers_iff :
    f.Covers pc ↔ f.Spans pc ∧ (f.Unwrapped ∨ f.start ≤ pc ∧ pc ≠ 0xffffffffffffffff) := by
  have last : (0xffffffffffffffff : UInt64).toNat = 2 ^ 64 - 1 := rfl
  have first := f.start.toNat_lt
  have count := f.fde.length.toNat_lt
  have here := pc.toNat_lt
  simp only [CfiEntry.Covers, CfiEntry.Spans, CfiEntry.Unwrapped, UInt64.le_iff_toNat_le, UInt64.lt_iff_toNat_lt,
    UInt64.toNat_sub, ne_eq, ← UInt64.toNat_inj, last]
  omega

end Ranges

/-! The functions of an index. -/
section Indexed

variable (module : LoadedModule)

theorem place_stands (place : Place) (member : place ∈ module.index.1.places) :
    ∃ f ∈ module.functions, Stands module.index.1.cies place.item f := by
  have listed : place.item ∈ module.scan.entries := by
    apply (sort_entries_perm _).subset
    rw [← index_items]
    exact List.mem_map_of_mem (Array.mem_toList_iff.mpr member)
  obtain ⟨same, stand⟩ := List.forall₂_iff_get.mp (module_holds module).1.entries
  obtain ⟨⟨i, inside⟩, found⟩ := List.mem_iff_get.mp listed
  have stands := stand i inside (same ▸ inside)
  rw [found] at stands
  exact ⟨_, List.mem_reverse.mp (List.get_mem _ _), stands⟩

def TestsAgree (e : IndexEntry) (f : CfiEntry) (pc : UInt64) : Prop :=
  e.covers pc = f.fde.contains (pc - f.bias) ∧ e.covers pc = f.inRange pc

variable {module} {e : IndexEntry} {f : CfiEntry}

theorem tests_agree_iff (stands : Stands module.index.1.cies e f) (pc : UInt64) :
    TestsAgree e f pc ↔
      (f.Spans pc → f.fde.Unwrapped ∧ f.Unwrapped ∨
        ¬ f.fde.Unwrapped ∧ ¬ f.Unwrapped ∧ (f.start ≤ pc → pc = 0xffffffffffffffff)) := by
  have index : e.covers pc = true ↔
      f.Spans pc ∧ (f.Unwrapped ∨ f.start ≤ pc ∧ pc ≠ 0xffffffffffffffff) := by
    rw [stands_covers _ e f pc stands, decide_eq_true_iff]
    exact covers_iff f pc
  rw [TestsAgree, @Bool.eq_iff_iff _ (f.fde.contains _), @Bool.eq_iff_iff _ (f.inRange pc), index, contains_iff,
    in_range_iff]
  by_cases spans : f.Spans pc <;> by_cases linked : f.fde.Unwrapped <;> by_cases loaded : f.Unwrapped <;>
    simp [spans, linked, loaded]

theorem tests_always_agree_iff (stands : Stands module.index.1.cies e f) (code : f.fde.length ≠ 0) :
    (∀ pc, TestsAgree e f pc) ↔
      f.fde.Unwrapped ∧ f.Unwrapped ∨ ¬ f.fde.Unwrapped ∧ f.start = 0xffffffffffffffff := by
  have first : f.Spans f.start := by
    rw [CfiEntry.Spans, UInt64.sub_self]
    exact UInt64.pos_iff_ne_zero.mpr code
  simp only [tests_agree_iff stands]
  constructor
  · intro agree
    rcases agree f.start first with whole | ⟨linked, -, last⟩
    · exact .inl whole
    · exact .inr ⟨linked, last (UInt64.le_refl _)⟩
  · rintro (whole | ⟨linked, last⟩) pc spans
    · exact .inl whole
    · have greatest : (0xffffffffffffffff : UInt64).toNat = 2 ^ 64 - 1 := rfl
      refine .inr ⟨linked, ?_, fun after => ?_⟩
      · have some := UInt64.lt_iff_toNat_lt.mp (UInt64.pos_iff_ne_zero.mpr code)
        rw [UInt64.toNat_zero] at some
        rw [CfiEntry.Unwrapped, last, greatest]
        omega
      · rw [last, UInt64.le_iff_toNat_le, greatest] at after
        have bound := pc.toNat_lt
        rw [← UInt64.toNat_inj, greatest]
        omega

/-- Every place of an index holds a function, and an address is covered alike by all three tests exactly
if it is none of the function's, or neither range of the function wraps, or both do and the index does
not count the address. They agree at all addresses if neither range wraps, and else only for a function
that begins at the last address. Of a function that a lookup finds for an address, the test at link time
confirms the address exactly if the range at link time does not wrap, and the range of the entry exactly
if that one does not. -/
theorem coverage_exact (module : LoadedModule) :
    (∀ place ∈ module.index.1.places, ∃ f ∈ module.functions,
      module.index.1.entryOf place.item = some f ∧ f.bias = module.bias ∧
      (∀ pc, TestsAgree place.item f pc ↔
        (f.Spans pc → f.fde.Unwrapped ∧ f.Unwrapped ∨
          ¬ f.fde.Unwrapped ∧ ¬ f.Unwrapped ∧ (f.start ≤ pc → pc = 0xffffffffffffffff))) ∧
      ((∀ pc, TestsAgree place.item f pc) ↔
        f.fde.Unwrapped ∧ f.Unwrapped ∨ ¬ f.fde.Unwrapped ∧ f.start = 0xffffffffffffffff)) ∧
    ∀ pc f, module.index.1.find pc = some f →
      (f.fde.contains (pc - f.bias) = true ↔ f.fde.Unwrapped) ∧ (f.inRange pc = true ↔ f.Unwrapped) := by
  constructor
  · intro place member
    obtain ⟨f, inside, stands⟩ := place_stands module place member
    obtain ⟨area, -, header, -, found⟩ := function_read inside
    obtain ⟨cie, fde, -, code, rfl⟩ := function_at_some found
    exact ⟨_, inside, entry_stands _ _ _ stands, rfl, tests_agree_iff stands, tests_always_agree_iff stands code⟩
  · intro pc f found
    rw [module_find] at found
    have covers : f.Covers pc := by simpa using List.find?_some found
    have spans := ((covers_iff f pc).mp covers).1
    rw [contains_iff, in_range_iff]
    simp only [spans, true_and, and_self]

def loneFunction (start length bias : UInt64) : LoadedModule where
  name := "m"
  bias := bias
  debugFrame := some {
    kind := .debugFrame
    address := 0
    data := [
      0x0c, 0, 0, 0, 0xff, 0xff, 0xff, 0xff, 1, 0, 1, 0x78, 0x10, 0x0c, 7, 0x10,
      0x14, 0, 0, 0, 0, 0, 0, 0] ++ littleBytes 8 start.toNat ++ littleBytes 8 length.toNat }

-- The code is loaded close below the last address.
theorem coverage_exact_moved :
    let module := loneFunction 0x1000 0x100 0xffffffffffffee00
    (∃ place ∈ module.index.1.places, ∃ f, module.index.1.entryOf place.item = some f ∧
      f.fde.Unwrapped ∧ f.Unwrapped ∧ ∀ pc, TestsAgree place.item f pc) ∧
    ∃ f, module.index.1.find 0xfffffffffffffefe = some f ∧ f.fde.Unwrapped ∧ f.Unwrapped ∧
      f.fde.contains (0xfffffffffffffefe - f.bias) = true ∧ f.inRange 0xfffffffffffffefe = true := by
  intro module
  constructor
  · have held : module.index.1.places[0]?.any (fun place =>
        (module.index.1.entryOf place.item).any fun f => f.fde.Unwrapped && f.Unwrapped) = true := by
      decide +kernel
    obtain ⟨place, first, held⟩ := (Option.any_eq_true _ _).mp held
    obtain ⟨f, entry, whole⟩ := (Option.any_eq_true _ _).mp held
    simp only [Bool.and_eq_true, decide_eq_true_eq] at whole
    have member := Array.mem_of_getElem? first
    obtain ⟨f', -, same, -, -, always⟩ := (coverage_exact module).1 place member
    rw [entry] at same
    cases same
    exact ⟨place, member, f, entry, whole.1, whole.2, always.mpr (.inl whole)⟩
  · have held : (module.index.1.find 0xfffffffffffffefe).any (fun f => f.fde.Unwrapped && f.Unwrapped) = true := by
      decide +kernel
    obtain ⟨f, found, whole⟩ := (Option.any_eq_true _ _).mp held
    simp only [Bool.and_eq_true, decide_eq_true_eq] at whole
    have tests := (coverage_exact module).2 _ f found
    exact ⟨f, found, whole.1, whole.2, tests.1.mpr whole.1, tests.2.mpr whole.2⟩

-- The code takes the last sixteen bytes there are, so that both ends wrap, and what is found for an address
-- does not contain it.
theorem found_and_not_contained :
    let module := loneFunction 0xfffffffffffffff0 0x10 0
    ∃ f, module.index.1.find 0xfffffffffffffff8 = some f ∧
      f.fde.contains (0xfffffffffffffff8 - f.bias) = false ∧ f.inRange 0xfffffffffffffff8 = false := by
  intro module
  have held : (module.index.1.find 0xfffffffffffffff8).any (fun f =>
      !f.fde.contains (0xfffffffffffffff8 - f.bias) && !f.inRange 0xfffffffffffffff8) = true := by
    decide +kernel
  obtain ⟨f, found, outside⟩ := (Option.any_eq_true _ _).mp held
  simp only [Bool.and_eq_true, Bool.not_eq_true'] at outside
  exact ⟨f, found, outside.1, outside.2⟩

end Indexed

end CallFrame
