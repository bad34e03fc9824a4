import CallFrame.Proofs.Decoding
import CallFrame.Proofs.RowInvariants
import CallFrame.Scripted

/-!
Registers that are the return address. A rule may say that a register is the return address, or the
return address plus an offset. The rule of the return address column is then followed: it takes the
place of the first kind of rule when the frame is decoded, and it is applied to the column itself
where the second kind is. Both find what recovering the column finds, as long as the outcome of the
column's rule does not depend on the register it is applied to. It does for registered functions.
-/

namespace CallFrame

/-! The return address column always has a rule. -/
section Column

variable {target : Target} {entry : CfiEntry}

theorem specified_stable (target : Target) (column : Register) :
    Stable target fun row => row.rule column ≠ .unspecified where
  cfa _ _ specified := specified
  defined row r rule specified _ programmed := by
    rw [Row.rule_set_rule]
    split
    · rintro rfl
      exact programmed
    · exact specified
  restored row source r specified initial _ := by
    rw [Row.rule_set_rule]
    split
    next same =>
      rw [← same]
      exact initial
    next => exact specified

theorem seed_column_specified (initReg : Register → RegisterRule) (column : Register)
    (inRange : entry.returnColumn target = .ok column) :
    (entry.seed target initReg).table.row.rule column ≠ .unspecified := by
  have inside : column.number.toNat < entry.seedCount target := by
    rw [CfiEntry.seedCount, inRange]
    exact Nat.lt_of_lt_of_le (Nat.lt_succ_self _) (Nat.le_max_right _ _)
  rw [seed_rule initReg column inside, inRange]
  change seedRule column initReg column ≠ _
  unfold seedRule
  split
  · rw [if_pos rfl]
    rintro ⟨⟩
  next unknown => exact unknown

theorem execute_column_specified (initReg : Register → RegisterRule) (pc : UInt64)
    (addressed : (execute target entry initReg pc).1.row.cfa.isSome) :
    (execute target entry initReg pc).1.row.rule (execute target entry initReg pc).1.returnColumn ≠
      .unspecified := by
  cases inRange : entry.returnColumn target with
  | error fault =>
      -- no program is run then, so that no rule for the frame address can be there
      simp [execute, inRange, CfiEntry.seed] at addressed
  | ok column =>
      have same : (execute target entry initReg pc).1.returnColumn = column := by
        simp only [execute, inRange]
        split <;> rfl
      rw [same]
      exact execute_row (specified_stable target column) initReg pc
        (seed_column_specified initReg column inRange)

end Column

namespace Occasion

variable (o : Occasion) (level : Nat)

theorem interpreted_execute (unwound : UnwindRow) (found : o.interpreted level = .ok unwound) :
    ∃ entry initReg pc, unwound = (execute o.unwinder.arch.toTarget entry initReg pc).1 := by
  obtain ⟨located, after, -, found⟩ := UnwindM.bind_ok found
  rw [UnwindM.run_lift] at found
  exact ⟨located.entry, _, located.lookupPc, (Except.ok.inj found).symm⟩

theorem decoded_column_specified (unwound : UnwindRow) (cache : FrameCache)
    (row : o.interpreted level = .ok unwound) (decodes : o.decoded level = .ok cache) :
    unwound.row.rule unwound.returnColumn ≠ .unspecified := by
  obtain ⟨-, other, -, -, row', addressed, -⟩ := o.decoded_ok level cache decodes
  rw [row] at row'
  cases row'
  obtain ⟨entry, initReg, pc, rfl⟩ := o.interpreted_execute level unwound row
  exact execute_column_specified initReg pc addressed

end Occasion

namespace Unwinder

theorem rule_follow_return (rule : RegisterRule) (row : Row) (r : Register) :
    (followReturn rule row).rule r =
      if row.rule r = .returnAddress then rule else row.rule r := by
  simp only [followReturn, Row.rule, Array.getD_eq_getD_getElem?, Array.getElem?_map]
  cases row.rules[r.number.toNat]? with
  | none => rfl
  | some known =>
      by_cases follows : known = .returnAddress <;> simp [follows]

section Apply

variable (u : Unwinder) (cache : FrameCache) (level : Nat)

-- The rule for the return address refers to no other, so it is applied at once.
theorem apply_return_rule (column r : Register) (rule : RegisterRule) :
    u.apply cache level r (returnRule column rule) =
      u.applyDirect cache level r (returnRule column rule) := by
  cases rule <;> rfl

/-- Only a function that is called can tell which register the rule for the return address is applied
to. -/
theorem apply_return_rule_anywhere (column r other : Register) (rule : RegisterRule)
    (noFunction : ∀ name, rule ≠ .callFunction name) :
    u.applyDirect cache level r (returnRule column rule) =
      u.applyDirect cache level other (returnRule column rule) := by
  cases rule with
  | callFunction name => exact absurd rfl (noFunction name)
  | _ => rfl

def knownAfter (recovering : UnwindM RegisterValue) (session : Session) :
    Except Fault (Option UInt64) :=
  (recovering.run.run session).1.map RegisterValue.known

theorem known_after_same (r other : Register) (session : Session) :
    knownAfter (u.applyDirect cache level r .sameValue) session =
      knownAfter (u.applyDirect cache level other (.savedInRegister r)) session := by
  simp only [knownAfter, applyDirect, UnwindM.run_bind]
  rcases ((u.frame level).readRegister r).run.run session with ⟨fault | value, after⟩ <;> rfl

-- Whichever register the rule for the return address is applied to, a function that it calls is the
-- only one to notice.
theorem return_rule_agrees (column r : Register) (rule : RegisterRule) (session : Session) :
    knownAfter (u.applyDirect cache level r (returnRule column rule)) session =
        knownAfter (u.applyDirect cache level column (returnRule column rule)) session ↔
      ∀ name, rule = .callFunction name →
        knownAfter (u.arch.functions name (u.frame level) r) session =
          knownAfter (u.arch.functions name (u.frame level) column) session := by
  by_cases called : ∃ name, rule = .callFunction name
  · obtain ⟨name, rfl⟩ := called
    constructor
    · rintro same _ ⟨⟩
      exact same
    · intro same
      exact same name rfl
  · have noFunction : ∀ name, rule ≠ .callFunction name := by
      intro name function
      exact called ⟨name, function⟩
    rw [apply_return_rule_anywhere u cache level column r column rule noFunction]
    constructor
    · intro _ name function
      exact absurd function (noFunction name)
    · intro _
      rfl

theorem offset_run (r : Register) (offset : Int64) (session : Session) :
    ((u.apply cache level r (.returnAddressAtOffset offset)).run.run session).1 =
      match knownAfter (u.returnAddress cache level) session with
      | .error fault => .error fault
      | .ok none => .error (.noReturnAddress level)
      | .ok (some value) => .ok (.computed (value + offset.toUInt64)) := by
  simp only [apply, UnwindM.run_bind, knownAfter]
  rcases (u.returnAddress cache level).run.run session with ⟨fault | value, rest⟩
  · rfl
  · cases known : value.known <;> simp [known, Except.map] <;> rfl

theorem recover_run (session : Session) (r : Register)
    (answer : ((u.cache level).run.run session).1 = .ok cache) :
    (u.recoverRegister level r).run.run session =
      (u.apply cache level r (cache.row.rule r)).run.run ((u.cache level).run.run session).2 := by
  rw [recoverRegister, UnwindM.run_bind]
  rcases done : (u.cache level).run.run session with ⟨result, rest⟩
  rw [done] at answer
  cases answer
  rfl

/-- Recovering the return address column itself finds the return address. -/
theorem known_after_column (located : Located) (unwound : UnwindRow) (cfa : UInt64)
    (isCache : cache = frameCache located unwound cfa) (session : Session)
    (specified : unwound.row.rule unwound.returnColumn ≠ .unspecified)
    (noOffset : ∀ offset, unwound.row.rule unwound.returnColumn ≠ .returnAddressAtOffset offset) :
    knownAfter (u.apply cache level unwound.returnColumn (cache.row.rule unwound.returnColumn))
        session =
      knownAfter (u.returnAddress cache level) session := by
  have stored : cache.returnRule =
      returnRule unwound.returnColumn (unwound.row.rule unwound.returnColumn) := by rw [isCache]; rfl
  have column : cache.returnColumn = unwound.returnColumn := by rw [isCache]; rfl
  have ruled : cache.row.rule unwound.returnColumn =
      if unwound.row.rule unwound.returnColumn = .returnAddress then cache.returnRule
      else unwound.row.rule unwound.returnColumn := by
    rw [stored, isCache]
    exact rule_follow_return _ _ _
  rw [returnAddress, column, ruled, stored]
  cases rule : unwound.row.rule unwound.returnColumn with
  | unspecified => exact absurd rule specified
  | returnAddressAtOffset offset => exact absurd rule (noOffset offset)
  | sameValue => exact known_after_same u cache level _ _ session
  | _ => rfl

end Apply

end Unwinder

open Unwinder in
/-- A register whose rule says that it is the return address is recovered with the fault or the value
that recovering the return address column ends in, exactly if the column has no function to call, or
one that finds the same for both registers. A register that is the return address plus an offset is
always computed from what recovering the column finds, and is lost where that finds no value. -/
theorem return_rules_exact (o : Occasion) (u : Unwinder) (session : Session) (level : Nat)
    (unwound : UnwindRow) (cache : FrameCache) (fills : o.Fills level u session)
    (row : o.interpreted level = .ok unwound) (decodes : o.decoded level = .ok cache)
    (noOffset : ∀ offset, unwound.row.rule unwound.returnColumn ≠ .returnAddressAtOffset offset)
    (r : Register) :
    let column := unwound.returnColumn
    let after := ((u.cache level).run.run session).2
    (unwound.row.rule r = .returnAddress →
      (knownAfter (u.recoverRegister level r) session =
          knownAfter (u.recoverRegister level column) session ↔
        ∀ name, unwound.row.rule column = .callFunction name →
          knownAfter (u.arch.functions name (u.frame level) r) after =
            knownAfter (u.arch.functions name (u.frame level) column) after)) ∧
    ∀ offset, unwound.row.rule r = .returnAddressAtOffset offset →
      ((u.recoverRegister level r).run.run session).1 =
        match knownAfter (u.recoverRegister level column) session with
        | .error fault => .error fault
        | .ok none => .error (.noReturnAddress level)
        | .ok (some value) => .ok (.computed (value + offset.toUInt64)) := by
  intro column after
  have answer := o.cache_decoded level u session fills
  rw [decodes] at answer
  have recovering (r : Register) := recover_run u cache level session r answer
  have specified := o.decoded_column_specified level unwound cache row decodes
  obtain ⟨located, same, cfa, -, row', -, isCache⟩ := o.decoded_ok level cache decodes
  rw [row] at row'
  cases row'
  have returned := known_after_column u cache level located unwound cfa isCache after specified noOffset
  have ruled : cache.row.rule r = if unwound.row.rule r = .returnAddress then
      returnRule column (unwound.row.rule column) else unwound.row.rule r := by
    rw [isCache]
    exact rule_follow_return _ _ _
  have stored : u.returnAddress cache level =
      u.applyDirect cache level column (returnRule column (unwound.row.rule column)) := by
    rw [returnAddress, isCache]
    rfl
  constructor
  · intro follows
    rw [knownAfter, knownAfter, recovering, recovering, ← knownAfter, ← knownAfter, returned, stored,
      ruled, if_pos follows, apply_return_rule]
    exact return_rule_agrees u cache level column r _ after
  · intro offset offsets
    have ruled' : cache.row.rule r = .returnAddressAtOffset offset := by
      rw [ruled, offsets]
      rfl
    rw [recovering, knownAfter, recovering, ← knownAfter, returned, ruled']
    exact offset_run u cache level r offset after

/-- A frame whose register 11 is the return address and whose register 12 is the byte behind it. The
architecture gives the return address column the rule. -/
def returningFrame (rule : RegisterRule) : Unwinder where
  arch := { sampleArch with
    initReg := some (Scripted.initReg [
      (⟨11⟩, .returnAddress), (⟨12⟩, .returnAddressAtOffset 1), (⟨16⟩, rule)])
    functions := Scripted.functions }
  cfi := .ofFunctions [(sampleCie [0x0c, 7, 16], sampleFde 0x1000 [])]
  inferior := Scripted.Snapshot.inferior {
    registers := [((0, ⟨16⟩), 0x1010), ((0, ⟨7⟩), 0x7000)]
    memory := (Memory.mk []).write 0x7008 [0x05, 0x50, 0, 0, 0, 0, 0, 0] }
  evaluator := Scripted.byteEvaluator

def returningOccasion (rule : RegisterRule) : Occasion where
  unwinder := returningFrame rule
  session := ({} : Session).withDecoding 0

theorem returning_frame_decodes (rule : RegisterRule)
    (rules : ((returningOccasion rule).interpreted 0).toOption.map (fun unwound =>
      (unwound.returnColumn, unwound.row.rule ⟨11⟩, unwound.row.rule ⟨12⟩,
        unwound.row.rule ⟨16⟩)) =
      some (⟨16⟩, .returnAddress, .returnAddressAtOffset 1, rule))
    (decodes : ((returningOccasion rule).decoded 0).toOption.isSome) :
    ∃ unwound cache, (returningOccasion rule).interpreted 0 = .ok unwound ∧
      (returningOccasion rule).decoded 0 = .ok cache ∧ unwound.returnColumn = ⟨16⟩ ∧
      unwound.row.rule ⟨11⟩ = .returnAddress ∧
      unwound.row.rule ⟨12⟩ = .returnAddressAtOffset 1 ∧ unwound.row.rule ⟨16⟩ = rule := by
  obtain ⟨unwound, row, columns⟩ := Option.map_eq_some_iff.mp rules
  obtain ⟨cache, decoded⟩ := Option.isSome_iff_exists.mp decodes
  simp only [Prod.mk.injEq] at columns
  obtain ⟨column, first, second, third⟩ := columns
  exact ⟨unwound, cache, ok_of_to_option row, ok_of_to_option decoded, column, first, second, third⟩

theorem return_rules_saved :
    let u := returningFrame (.savedAtOffset (-8))
    (∃ unwound cache, (returningOccasion (.savedAtOffset (-8))).Fills 0 u {} ∧
      (returningOccasion (.savedAtOffset (-8))).interpreted 0 = .ok unwound ∧
      (returningOccasion (.savedAtOffset (-8))).decoded 0 = .ok cache ∧
      unwound.row.rule unwound.returnColumn = .savedAtOffset (-8) ∧
      unwound.row.rule ⟨11⟩ = .returnAddress ∧
      unwound.row.rule ⟨12⟩ = .returnAddressAtOffset 1) ∧
    Unwinder.knownAfter (u.recoverRegister 0 ⟨11⟩) {} =
      Unwinder.knownAfter (u.recoverRegister 0 ⟨16⟩) {} ∧
    ((u.recoverRegister 0 ⟨12⟩).run.run {}).1.toOption = some (.computed 0x5006) := by
  intro u
  obtain ⟨unwound, cache, row, decodes, column, first, second, third⟩ :=
    returning_frame_decodes (.savedAtOffset (-8)) (by decide +kernel) (by decide +kernel)
  have fills : (returningOccasion (.savedAtOffset (-8))).Fills 0 u {} := rfl
  have saved : unwound.row.rule unwound.returnColumn = .savedAtOffset (-8) := column ▸ third
  have exact (r : Register) := return_rules_exact _ u {} 0 unwound cache fills row decodes
    (by rw [saved]; rintro offset ⟨⟩) r
  have found : (Unwinder.knownAfter (u.recoverRegister 0 ⟨16⟩) {}).toOption = some (some 0x5005) := by
    decide +kernel
  refine ⟨⟨unwound, cache, fills, row, decodes, saved, first, second⟩, ?_, ?_⟩
  · rw [← column]
    refine ((exact ⟨11⟩).1 first).mpr ?_
    rw [saved]
    rintro name ⟨⟩
  · rw [(exact ⟨12⟩).2 1 second, column, ok_of_to_option found]
    rfl

-- A function that is called for the return address column computes from the register it is called
-- for, and so finds something else for a register that is the return address.
theorem function_return_differs :
    let u := returningFrame (.callFunction "magic")
    (∃ unwound cache, (returningOccasion (.callFunction "magic")).Fills 0 u {} ∧
      (returningOccasion (.callFunction "magic")).interpreted 0 = .ok unwound ∧
      (returningOccasion (.callFunction "magic")).decoded 0 = .ok cache ∧
      unwound.row.rule unwound.returnColumn = .callFunction "magic" ∧
      unwound.row.rule ⟨11⟩ = .returnAddress) ∧
    (Unwinder.knownAfter (u.recoverRegister 0 ⟨16⟩) {}).toOption = some (some 0x4210) ∧
    (Unwinder.knownAfter (u.recoverRegister 0 ⟨11⟩) {}).toOption = some (some 0x420b) := by
  intro u
  obtain ⟨unwound, cache, row, decodes, column, first, -, third⟩ :=
    returning_frame_decodes (.callFunction "magic") (by decide +kernel) (by decide +kernel)
  exact ⟨⟨unwound, cache, rfl, row, decodes, column ▸ third, first⟩, by decide +kernel,
    by decide +kernel⟩

end CallFrame
