import CallFrame.Interpreter

/-!
What interpreting keeps. Rows are held in three places while programs run: the row under construction,
the remembered rows, and the row that restoring goes back to. A property of rows that no instruction
can break holds of all of them, and so of the row that interpreting yields.
-/

namespace CallFrame

namespace Row

theorem rule_set_rule (row : Row) (r other : Register) (rule : RegisterRule) :
    (row.setRule r rule).rule other = if other = r then rule else row.rule other := by
  unfold Row.rule Row.setRule
  simp only [Array.getD_eq_getD_getElem?, Array.getElem?_setIfInBounds, Array.size_append,
    Array.size_replicate, Array.getElem?_append, Array.getElem?_replicate]
  by_cases same : other = r
  · subst same
    have room : other.number.toNat < row.rules.size + (other.number.toNat + 1 - row.rules.size) := by
      omega
    simp [room]
  · have apart : ¬ r.number.toNat = other.number.toNat := by
      intro numbers
      exact same (congrArg Register.mk (UInt16.toNat_inj.mp numbers)).symm
    rw [if_neg apart, if_neg same]
    by_cases inside : other.number.toNat < row.rules.size
    · rw [if_pos inside]
    · -- a column that the row has been given on the way is as unspecified as it was
      rw [if_neg inside, Array.getElem?_eq_none (Nat.not_lt.mp inside)]
      split <;> rfl

-- A row is grown up to the column, and never cut.
theorem size_set_rule (row : Row) (r : Register) (rule : RegisterRule) :
    (row.setRule r rule).rules.size = max row.rules.size (r.number.toNat + 1) := by
  simp only [Row.setRule, Array.size_setIfInBounds, Array.size_append, Array.size_replicate]
  omega

end Row

/-! The row before any program. -/
section Seed

variable {target : Target} {entry : CfiEntry} {initReg : Register → RegisterRule}

theorem seed_rule (initReg : Register → RegisterRule) (r : Register)
    (inside : r.number.toNat < entry.seedCount target) :
    (entry.seed target initReg).table.row.rule r =
      seedRule ((entry.returnColumn target).toOption.getD noColumn) initReg r := by
  have number : (r.number.toNat).toUInt16 = r.number := UInt16.ofNat_toNat
  simp [CfiEntry.seed, Row.rule, Array.getD_eq_getD_getElem?, inside, number]

theorem seed_outside (r : Register) (outside : ¬ r.number.toNat < entry.seedCount target) :
    (entry.seed target initReg).table.row.rule r = .unspecified := by
  simp [CfiEntry.seed, Row.rule, Array.getD_eq_getD_getElem?, outside]

end Seed

def RegisterRule.Programmed : RegisterRule → Prop
  | .undefined | .sameValue | .savedAtOffset _ | .savedInRegister _ | .savedByExpression _
  | .savedValueAtOffset _ | .savedValueByExpression _ => True
  | .unspecified | .callFunction _ | .returnAddress | .returnAddressAtOffset _ | .cfaValue
  | .cfaValueAtOffset _ => False

def Target.Names (target : Target) (r : Register) : Prop :=
  r.number.toNat < target.numRegs.toNat + Target.extraColumns

/-- No instruction can break the property, whatever it finds in the rows that are held. -/
structure Stable (target : Target) (P : Row → Prop) : Prop where
  cfa (row : Row) (rule : CfaRule) : P row → P { row with cfa := some rule }
  defined (row : Row) (r : Register) (rule : RegisterRule) :
    P row → target.Names r → rule.Programmed → P (row.setRule r rule)
  restored (row source : Row) (r : Register) :
    P row → P source → target.Names r → P (row.setRule r (source.rule r))

structure StableWithin (target : Target) (scope : Register → Prop) (P : Row → Prop) : Prop where
  cfa (row : Row) (rule : CfaRule) : P row → P { row with cfa := some rule }
  defined (row : Row) (r : Register) (rule : RegisterRule) :
    P row → target.Names r → scope r → rule.Programmed → P (row.setRule r rule)
  restored (row source : Row) (r : Register) :
    P row → P source → target.Names r → P (row.setRule r (source.rule r))

theorem Stable.within {target : Target} {P : Row → Prop} (stable : Stable target P) :
    StableWithin target (fun _ => True) P where
  cfa := stable.cfa
  defined row r rule holds named _ programmed := stable.defined row r rule holds named programmed
  restored := stable.restored

/-- The instruction gives the column a rule. One that restores the column brings a rule back, and gives
none. -/
def Instruction.Gives (target : Target) (kind : SectionKind) (r : Register) : Instruction → Prop
  | .undefined raw | .sameValue raw | .offset raw _ | .offsetExtendedSf raw _ | .valOffset raw _
  | .valOffsetSf raw _ | .register raw _ | .expression raw _ | .valExpression raw _
  | .negativeOffsetExtended raw _ => target.column kind raw = .ok r
  | .windowSave => target.registerWindows = true ∧ 8 ≤ r.number.toNat ∧ r.number.toNat < 32
  | .setLoc _ | .advanceLoc _ | .defCfa .. | .defCfaSf .. | .defCfaRegister _ | .defCfaOffset _
  | .defCfaOffsetSf _ | .defCfaExpression _ | .restore _ | .rememberState | .restoreState | .skipped _
  | .nop => False

def CfiEntry.Gives (entry : CfiEntry) (target : Target) (r : Register) : Prop :=
  ∃ instruction, .ok instruction ∈ entry.initialProgram ++ entry.program ∧
    instruction.Gives target entry.kind r

structure RunState.Holds (P : Row → Prop) (state : RunState) : Prop where
  row : P state.table.row
  remembered : ∀ row ∈ state.table.remembered, P row
  initial : P state.initial

section Step

variable {target : Target} {entry : CfiEntry} {scope : Register → Prop} {P : Row → Prop}

def Keeps (P : Row → Prop) (result : Except Fault RunState) : Prop :=
  ∀ after, result = .ok after → after.Holds P

theorem keeps_ok {after : RunState} (holds : after.Holds P) : Keeps P (.ok after) := by
  rintro _ ⟨⟩
  exact holds

theorem keeps_bind {operand : Except Fault α} {follow : α → Except Fault RunState}
    (keeps : ∀ value, operand = .ok value → Keeps P (follow value)) :
    Keeps P (operand >>= follow) := by
  cases operand with
  | error fault =>
      intro after carried
      cases carried
  | ok value => exact keeps value rfl

theorem column_names {kind : SectionKind} {raw : UInt64} {r : Register}
    (named : target.column kind raw = .ok r) : target.Names r := by
  unfold Target.column at named
  dsimp only at named
  split at named
  next inside =>
    cases named
    simp only [Target.Names, UInt64.toNat_toUInt16]
    omega
  next => cases named

theorem holds_set_cfa (stable : StableWithin target scope P) {state : RunState} (holds : state.Holds P)
    (rule : CfaRule) : (state.setCfa rule).Holds P :=
  ⟨stable.cfa _ rule holds.row, holds.remembered, holds.initial⟩

theorem holds_warn {state : RunState} (holds : state.Holds P) (warning : Warning) :
    (state.warn warning).Holds P :=
  ⟨holds.row, holds.remembered, holds.initial⟩

theorem holds_set_rule (stable : StableWithin target scope P) {state : RunState} (holds : state.Holds P)
    {r : Register} {rule : RegisterRule} (named : target.Names r) (inScope : scope r)
    (programmed : rule.Programmed) : (state.setRule r rule).Holds P :=
  ⟨stable.defined _ r rule holds.row named inScope programmed, holds.remembered, holds.initial⟩

theorem holds_set_cfa_register (stable : StableWithin target scope P) {state : RunState}
    (holds : state.Holds P) (r : Register) : (state.setCfaRegister r).Holds P := by
  unfold RunState.setCfaRegister
  split
  · exact holds_set_cfa stable holds _
  · exact holds_set_cfa stable (holds_warn holds _) _

theorem holds_set_cfa_offset (stable : StableWithin target scope P) {state : RunState}
    (holds : state.Holds P) (offset : Int64) : (state.setCfaOffset offset).Holds P := by
  unfold RunState.setCfaOffset
  split
  · exact holds_set_cfa stable holds _
  · exact holds_warn holds _

theorem holds_move_to {state : RunState} (holds : state.Holds P) (location : UInt64) :
    (state.moveTo location).Holds P := by
  unfold RunState.moveTo
  dsimp only
  split <;> exact ⟨holds.row, holds.remembered, holds.initial⟩

theorem holds_fold (change : RunState → Nat → RunState) (items : List Nat)
    (keeps : ∀ state, state.Holds P → ∀ i ∈ items, (change state i).Holds P) (state : RunState)
    (holds : state.Holds P) : (items.foldl change state).Holds P := by
  induction items generalizing state with
  | nil => exact holds
  | cons i rest ih =>
      apply ih
      · intro state holds j member
        exact keeps state holds j (List.mem_cons_of_mem i member)
      · exact keeps state holds i List.mem_cons_self

theorem window_number (i : Nat) (low : i < 32) : (⟨i.toUInt16⟩ : Register).number.toNat = i := by
  simp only [Nat.toUInt16, UInt16.toNat_ofNat']
  omega

-- The window's columns are not checked when it is saved, but they are low enough for any target.
theorem window_names (i : Nat) (low : i < 32) : target.Names ⟨i.toUInt16⟩ := by
  rw [Target.Names, window_number i low, Target.extraColumns]
  omega

theorem holds_save_window (stable : StableWithin target scope P) {state : RunState}
    (holds : state.Holds P) (size : UInt8)
    (inScope : ∀ r : Register, 8 ≤ r.number.toNat → r.number.toNat < 32 → scope r) :
    (state.saveWindow size).Holds P := by
  have window (i : Nat) (high : 8 ≤ i) (low : i < 32) : scope ⟨i.toUInt16⟩ := by
    apply inScope <;> rw [window_number i low]
    · exact high
    · exact low
  simp only [RunState.saveWindow]
  apply holds_fold
  · intro state holds i member
    have low := List.mem_range.mp member
    exact holds_set_rule stable holds (window_names (16 + i) (by omega))
      (window (16 + i) (by omega) (by omega)) trivial
  apply holds_fold
  · intro state holds i member
    have low := List.mem_range.mp member
    exact holds_set_rule stable holds (window_names (8 + i) (by omega))
      (window (8 + i) (by omega) (by omega)) trivial
  · exact holds

theorem step_keeps (stable : StableWithin target scope P) (instruction : Instruction)
    (inScope : ∀ r, instruction.Gives target entry.kind r → scope r) (state : RunState)
    (holds : state.Holds P) : Keeps P (step target entry instruction state) := by
  have rule_at : ∀ raw (rule : RegisterRule), rule.Programmed →
      (∀ r, target.column entry.kind raw = .ok r → scope r) →
      Keeps P (target.column entry.kind raw >>= fun r => .ok (state.setRule r rule)) := by
    intro raw rule programmed inScope
    apply keeps_bind
    intro r named
    exact keeps_ok (holds_set_rule stable holds (column_names named) (inScope r named) programmed)
  cases instruction with
  | setLoc address => exact keeps_ok (holds_move_to holds _)
  | advanceLoc delta => exact keeps_ok ⟨holds.row, holds.remembered, holds.initial⟩
  | defCfa | defCfaSf =>
      exact keeps_bind fun _ _ => keeps_bind fun _ _ => keeps_ok (holds_set_cfa stable holds _)
  | defCfaRegister =>
      exact keeps_bind fun _ _ => keeps_ok (holds_set_cfa_register stable holds _)
  | defCfaOffset | defCfaOffsetSf =>
      exact keeps_bind fun _ _ => keeps_ok (holds_set_cfa_offset stable holds _)
  | defCfaExpression => exact keeps_ok (holds_set_cfa stable holds _)
  | undefined | sameValue | expression | valExpression => exact rule_at _ _ trivial inScope
  | offset | offsetExtendedSf | negativeOffsetExtended | valOffset | valOffsetSf | register =>
      exact keeps_bind fun _ _ => rule_at _ _ trivial inScope
  | restore raw =>
      apply keeps_bind
      intro r named
      exact keeps_ok ⟨stable.restored _ _ r holds.row holds.initial (column_names named),
        holds.remembered, holds.initial⟩
  | rememberState =>
      simp only [step, RuleTable.remember]
      split
      next table remembered =>
        split at remembered
        · cases remembered
        · cases remembered
          refine keeps_ok ⟨holds.row, ?_, holds.initial⟩
          intro row member
          rcases List.mem_cons.mp member with rfl | older
          · exact holds.row
          · exact holds.remembered row older
      next =>
        intro after carried
        cases carried
  | restoreState =>
      simp only [step, RuleTable.restore]
      split
      next table restored =>
        split at restored
        · cases restored
        next row rest before =>
          cases restored
          refine keeps_ok ⟨?_, ?_, holds.initial⟩
          · exact holds.remembered row (by simp [before])
          · intro other member
            exact holds.remembered other (by simp [before, member])
      next => exact keeps_ok (holds_warn holds _)
  | windowSave =>
      simp only [step]
      apply keeps_ok
      split
      next windows =>
        exact holds_save_window stable holds _ fun r low high => inScope r ⟨windows, low, high⟩
      next => exact holds
  | skipped | nop => exact keeps_ok holds

theorem run_holds (stable : StableWithin target scope P) (pc : UInt64)
    (program : List (Except Fault Instruction))
    (inScope : ∀ instruction, .ok instruction ∈ program →
      ∀ r, instruction.Gives target entry.kind r → scope r)
    (state : RunState) (holds : state.Holds P) : (run target entry pc program state).1.Holds P := by
  induction program generalizing state with
  | nil => exact holds
  | cons next rest ih =>
      unfold run
      split
      · exact holds
      split
      next after carried =>
        apply ih fun instruction member => inScope instruction (List.mem_cons_of_mem next member)
        cases next with
        | error fault => cases carried
        | ok instruction =>
            exact step_keeps stable instruction (inScope instruction List.mem_cons_self) state holds
              after carried
      next => exact holds

theorem run_entry_holds (stable : StableWithin target scope P)
    (inScope : ∀ r, entry.Gives target r → scope r) (pc : UInt64) (state : RunState)
    (holds : state.Holds P) : (runEntry target entry pc state).1.Holds P := by
  have shared : (run target entry pc entry.initialProgram state).1.Holds P := by
    apply run_holds stable pc _ _ state holds
    intro instruction member r gives
    exact inScope r ⟨instruction, List.mem_append_left _ member, gives⟩
  unfold runEntry
  split
  next after fault stopped =>
    rw [stopped] at shared
    exact shared
  next after ended =>
    rw [ended] at shared
    have handed : after.handOver.Holds P := ⟨shared.row, shared.remembered, shared.row⟩
    apply run_holds stable pc entry.program _ _ handed
    intro instruction member r gives
    exact inScope r ⟨instruction, List.mem_append_right _ member, gives⟩

theorem execute_row_within (stable : StableWithin target scope P)
    (inScope : ∀ r, entry.Gives target r → scope r) (initReg : Register → RegisterRule) (pc : UInt64)
    (seeded : P (entry.seed target initReg).table.row) :
    P (execute target entry initReg pc).1.row := by
  have holds : (entry.seed target initReg).Holds P := by
    refine ⟨seeded, ?_, seeded⟩
    rintro row ⟨⟩
  have ran : (runEntry target entry pc (entry.seed target initReg)).1.Holds P :=
    run_entry_holds stable inScope pc _ holds
  unfold execute
  dsimp only
  split
  · exact seeded
  · split
    next state ended =>
      rw [ended] at ran
      exact ran.row
    next state fault stopped =>
      rw [stopped] at ran
      exact ran.row

/-- A property that no instruction can break, and that the row has before any program, is one of the
row that interpreting yields. -/
theorem execute_row (stable : Stable target P) (initReg : Register → RegisterRule) (pc : UInt64)
    (seeded : P (entry.seed target initReg).table.row) :
    P (execute target entry initReg pc).1.row :=
  execute_row_within stable.within (fun _ _ => trivial) initReg pc seeded

theorem untouched_stable (target : Target) (column : Register) (rule : RegisterRule) :
    StableWithin target (fun r => r ≠ column) fun row => row.rule column = rule where
  cfa _ _ same := same
  defined row r rule same _ other _ := by
    rw [Row.rule_set_rule, if_neg other.symm]
    exact same
  restored row source r same initial _ := by
    rw [Row.rule_set_rule]
    split
    next this =>
      rw [← this]
      exact initial
    next => exact same

/-- A column that neither program gives a rule has the rule that it had before any program. -/
theorem execute_untouched (column : Register) (untouched : ¬ entry.Gives target column)
    (initReg : Register → RegisterRule) (pc : UInt64) :
    (execute target entry initReg pc).1.row.rule column =
      (entry.seed target initReg).table.row.rule column := by
  apply execute_row_within (untouched_stable target column _) _ initReg pc rfl
  rintro r gives rfl
  exact untouched gives

end Step

end CallFrame
