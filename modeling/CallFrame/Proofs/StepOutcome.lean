import CallFrame.Proofs.Reading
import CallFrame.Proofs.RowInvariants
import CallFrame.Proofs.UnwindTable

/-!
What one instruction leaves behind, said once. Apart from the two that remember and restore whole rows,
an instruction leaves the remembered rows and the row for restoring registers alone, and it makes of
every column what the instruction says of it by its operands: a rule, the rule for restoring, or nothing.
-/

namespace CallFrame

/-! What instructions say of a column. -/
section Effect

inductive ColumnEffect where
  | gives (rule : RegisterRule)
  /-- Back to the rule that the column had before the program. -/
  | restores
  deriving DecidableEq

def Cie.factored (cie : Cie) (units : Int) : Int64 :=
  Int64.ofInt (units * cie.dataAlignment.toInt)

def windowEffect (size : UInt8) (column : Nat) : Option ColumnEffect :=
  if 8 ≤ column ∧ column < 16 then some (.gives (.savedInRegister ⟨(column + 16).toUInt16⟩))
  else if 16 ≤ column ∧ column < 32 then
    some (.gives (.savedAtOffset (Int64.ofNat ((column - 16) * size.toNat))))
  else none

def Instruction.effect (target : Target) (entry : CfiEntry) (r : Register) (instruction : Instruction) :
    Option ColumnEffect :=
  let named (raw : UInt64) (effect : ColumnEffect) : Option ColumnEffect :=
    if target.adjusted raw entry.kind = r.number.toUInt64 then some effect else none
  match instruction with
  | .undefined raw => named raw (.gives .undefined)
  | .sameValue raw => named raw (.gives .sameValue)
  | .offset raw units => named raw (.gives (.savedAtOffset (entry.cie.factored units.toNat)))
  | .offsetExtendedSf raw units => named raw (.gives (.savedAtOffset (entry.cie.factored units.toInt)))
  | .negativeOffsetExtended raw units =>
    named raw (.gives (.savedAtOffset (entry.cie.factored (-units.toNat))))
  | .valOffset raw units => named raw (.gives (.savedValueAtOffset (entry.cie.factored units.toNat)))
  | .valOffsetSf raw units => named raw (.gives (.savedValueAtOffset (entry.cie.factored units.toInt)))
  | .register raw source =>
    named raw (.gives (.savedInRegister ⟨(target.adjusted source entry.kind).toUInt16⟩))
  | .expression raw code => named raw (.gives (.savedByExpression code))
  | .valExpression raw code => named raw (.gives (.savedValueByExpression code))
  | .restore raw => named raw .restores
  | .windowSave => if target.registerWindows then windowEffect target.addressSize r.number.toNat else none
  | .setLoc _ | .advanceLoc _ | .defCfa .. | .defCfaSf .. | .defCfaRegister _ | .defCfaOffset _
  | .defCfaOffsetSf _ | .defCfaExpression _ | .rememberState | .restoreState | .skipped _ | .nop => none

def ColumnEffect.settle (initial current : RegisterRule) : Option ColumnEffect → RegisterRule
  | some (.gives rule) => rule
  | some .restores => initial
  | none => current

def Instruction.ExchangesRows (instruction : Instruction) : Prop :=
  instruction = .rememberState ∨ instruction = .restoreState

instance (instruction : Instruction) : Decidable instruction.ExchangesRows :=
  inferInstanceAs (Decidable (_ ∨ _))

end Effect

/-! Operands that are accepted. -/
section Operands

theorem exact_offset_ok {refusal : Fault} {offset : Int} {word : Int64}
    (accepted : exactOffset refusal offset = .ok word) :
    word = Int64.ofInt offset ∧ word.toInt = offset := by
  unfold exactOffset at accepted
  split at accepted
  next fits =>
    cases accepted
    exact ⟨rfl, Int64.toInt_ofInt_of_le fits.1 fits.2⟩
  next => cases accepted

theorem signed_offset_ok {cie : Cie} {units : Int64} {word : Int64}
    (accepted : signedOffset cie units = .ok word) : word = cie.factored units.toInt :=
  (exact_offset_ok accepted).1

theorem unsigned_offset_ok {cie : Cie} {units : UInt64} {word : Int64}
    (accepted : unsignedOffset cie units = .ok word) :
    word = cie.factored units.toNat ∧ word.toInt = units.toNat * cie.dataAlignment.toInt := by
  obtain ⟨stored, fits, accepted⟩ := bind_ok accepted
  have value := (exact_offset_ok fits).2
  rw [value] at accepted
  exact exact_offset_ok accepted

theorem negated_offset_ok {cie : Cie} {units : UInt64} {word : Int64}
    (accepted : negatedOffset cie units = .ok word) : word = cie.factored (-units.toNat) := by
  obtain ⟨offset, fits, accepted⟩ := bind_ok accepted
  rw [(exact_offset_ok accepted).1, (unsigned_offset_ok fits).2, Cie.factored, Int.neg_mul]

theorem column_ok {target : Target} {kind : SectionKind} {raw : UInt64} {column : Register}
    (accepted : target.column kind raw = .ok column) :
    column = ⟨(target.adjusted raw kind).toUInt16⟩ ∧
      ∀ r : Register, r = column ↔ target.adjusted raw kind = r.number.toUInt64 := by
  unfold Target.column at accepted
  dsimp only at accepted
  split at accepted
  next inside =>
    cases accepted
    refine ⟨rfl, fun r => ?_⟩
    have low := r.number.toNat_lt
    rw [← UInt64.toNat_inj, UInt16.toNat_toUInt64]
    constructor
    · rintro rfl
      rw [UInt64.toNat_toUInt16]
      omega
    · intro same
      have number : r.number = (target.adjusted raw kind).toUInt16 := by
        rw [← UInt16.toNat_inj, UInt64.toNat_toUInt16]
        omega
      exact congrArg Register.mk number
  next => cases accepted

end Operands

/-! What a step leaves. -/
section Settles

structure RunState.Settles (state after : RunState) (effect : Register → Option ColumnEffect) : Prop where
  initial : after.initial = state.initial
  remembered : after.table.remembered = state.table.remembered
  rule (r : Register) : after.table.row.rule r =
    ColumnEffect.settle (state.initial.rule r) (state.table.row.rule r) (effect r)

variable {target : Target} {entry : CfiEntry} {state : RunState}

-- The rule of the frame address stands beside the columns.
theorem settles_cfa (cfa : CfaRule) : state.Settles (state.setCfa cfa) fun _ => none :=
  ⟨rfl, rfl, fun _ => rfl⟩

theorem settles_warn (warning : Warning) : state.Settles (state.warn warning) fun _ => none :=
  ⟨rfl, rfl, fun _ => rfl⟩

theorem settles_cfa_register (r : Register) : state.Settles (state.setCfaRegister r) fun _ => none := by
  unfold RunState.setCfaRegister
  split
  · exact settles_cfa _
  · exact ⟨rfl, rfl, fun _ => rfl⟩

theorem settles_cfa_offset (offset : Int64) :
    state.Settles (state.setCfaOffset offset) fun _ => none := by
  unfold RunState.setCfaOffset
  split
  · exact settles_cfa _
  · exact settles_warn _

theorem settles_move (location : UInt64) : state.Settles (state.moveTo location) fun _ => none := by
  unfold RunState.moveTo
  dsimp only
  split <;> exact ⟨rfl, rfl, fun _ => rfl⟩

theorem settles_rule {raw : UInt64} {column : Register} (accepted : target.column entry.kind raw = .ok column)
    (effect : ColumnEffect) (rule : RegisterRule)
    (made : rule = ColumnEffect.settle (state.initial.rule column) (state.table.row.rule column) effect) :
    state.Settles (state.setRule column rule) fun r =>
      if target.adjusted raw entry.kind = r.number.toUInt64 then some effect else none := by
  refine ⟨rfl, rfl, fun r => ?_⟩
  change (state.table.row.setRule column rule).rule r = _
  rw [Row.rule_set_rule]
  by_cases same : r = column
  · subst same
    rw [if_pos rfl, if_pos (((column_ok accepted).2 r).mp rfl), made]
  · rw [if_neg same, if_neg fun named => same (((column_ok accepted).2 r).mpr named)]
    rfl

theorem fold_rules (base count : Nat) (low : base + count ≤ 32) (rules : Nat → RegisterRule)
    (state : RunState) :
    let after := (List.range count).foldl
      (fun (state : RunState) i => state.setRule ⟨(base + i).toUInt16⟩ (rules i)) state
    after.initial = state.initial ∧ after.table.remembered = state.table.remembered ∧
      ∀ r : Register, after.table.row.rule r =
        if base ≤ r.number.toNat ∧ r.number.toNat < base + count then rules (r.number.toNat - base)
        else state.table.row.rule r := by
  induction count with
  | zero =>
      refine ⟨rfl, rfl, fun r => ?_⟩
      rw [if_neg (by omega)]
      rfl
  | succ count ih =>
      obtain ⟨initial, remembered, rule⟩ := ih (by omega)
      simp only [List.range_succ, List.foldl_append, List.foldl_cons, List.foldl_nil]
      refine ⟨initial, remembered, fun r => ?_⟩
      have number := window_number (base + count) (by omega)
      change (Row.setRule _ _ _).rule r = _
      rw [Row.rule_set_rule, rule]
      by_cases last : r.number.toNat = base + count
      · have same : r = ⟨(base + count).toUInt16⟩ := by
          apply congrArg Register.mk
          exact UInt16.toNat_inj.mp (last.trans number.symm)
        rw [if_pos same, if_pos (by omega), last, Nat.add_sub_cancel_left]
      · have apart : r ≠ ⟨(base + count).toUInt16⟩ := by
          rintro rfl
          exact last number
        have within : (base ≤ r.number.toNat ∧ r.number.toNat < base + (count + 1)) ↔
            base ≤ r.number.toNat ∧ r.number.toNat < base + count := by omega
        simp only [if_neg apart, within]

theorem settles_window (size : UInt8) :
    state.Settles (state.saveWindow size) fun r => windowEffect size r.number.toNat := by
  have out := fold_rules 8 8 (by decide) (fun i => .savedInRegister ⟨(24 + i).toUInt16⟩) state
  obtain ⟨initial, remembered, rule⟩ := out
  have stored := fold_rules 16 16 (by decide) (fun i => .savedAtOffset (Int64.ofNat (i * size.toNat)))
    ((List.range 8).foldl (fun (state : RunState) i =>
      state.setRule ⟨(8 + i).toUInt16⟩ (.savedInRegister ⟨(24 + i).toUInt16⟩)) state)
  obtain ⟨initial', remembered', rule'⟩ := stored
  refine ⟨initial'.trans initial, remembered'.trans remembered, fun r => ?_⟩
  rw [RunState.saveWindow, rule', rule, windowEffect]
  by_cases high : 16 ≤ r.number.toNat ∧ r.number.toNat < 32
  · have notLow : ¬ (8 ≤ r.number.toNat ∧ r.number.toNat < 16) := by omega
    rw [if_pos high, if_neg notLow, if_pos high]
    rfl
  by_cases middle : 8 ≤ r.number.toNat ∧ r.number.toNat < 16
  · have incoming : 24 + (r.number.toNat - 8) = r.number.toNat + 16 := by omega
    rw [if_neg high, if_pos middle, if_pos middle, incoming]
    rfl
  · rw [if_neg high, if_neg middle, if_neg middle, if_neg high]
    rfl

/-- An instruction that does not exchange rows makes of every column what it says of it, and leaves the
remembered rows and the row for restoring as they are. -/
theorem step_settles (instruction : Instruction) (plain : ¬ instruction.ExchangesRows) (after : RunState)
    (carried : step target entry instruction state = .ok after) :
    state.Settles after fun r => instruction.effect target entry r := by
  cases instruction with
  | setLoc address =>
      cases carried
      exact settles_move _
  | advanceLoc delta =>
      cases carried
      exact ⟨rfl, rfl, fun _ => rfl⟩
  | defCfa register offset | defCfaSf register offset =>
      obtain ⟨column, -, carried⟩ := bind_ok carried
      obtain ⟨word, -, carried⟩ := bind_ok carried
      cases carried
      exact settles_cfa _
  | defCfaRegister register =>
      obtain ⟨column, -, carried⟩ := bind_ok carried
      cases carried
      exact settles_cfa_register _
  | defCfaOffset offset | defCfaOffsetSf offset =>
      obtain ⟨word, -, carried⟩ := bind_ok carried
      cases carried
      exact settles_cfa_offset _
  | defCfaExpression expression =>
      cases carried
      exact settles_cfa _
  | undefined raw | sameValue raw | expression raw code | valExpression raw code =>
      obtain ⟨column, accepted, carried⟩ := bind_ok carried
      cases carried
      exact settles_rule accepted _ _ rfl
  | offset raw units | valOffset raw units =>
      obtain ⟨word, fits, carried⟩ := bind_ok carried
      obtain ⟨column, accepted, carried⟩ := bind_ok carried
      cases carried
      rw [(unsigned_offset_ok fits).1]
      exact settles_rule accepted _ _ rfl
  | offsetExtendedSf raw units | valOffsetSf raw units =>
      obtain ⟨word, fits, carried⟩ := bind_ok carried
      obtain ⟨column, accepted, carried⟩ := bind_ok carried
      cases carried
      rw [signed_offset_ok fits]
      exact settles_rule accepted _ _ rfl
  | negativeOffsetExtended raw units =>
      obtain ⟨word, fits, carried⟩ := bind_ok carried
      obtain ⟨column, accepted, carried⟩ := bind_ok carried
      cases carried
      rw [negated_offset_ok fits]
      exact settles_rule accepted _ _ rfl
  | register raw source =>
      obtain ⟨from', found, carried⟩ := bind_ok carried
      obtain ⟨column, accepted, carried⟩ := bind_ok carried
      cases carried
      rw [(column_ok found).1]
      exact settles_rule accepted _ _ rfl
  | restore raw =>
      obtain ⟨column, accepted, carried⟩ := bind_ok carried
      cases carried
      exact settles_rule accepted .restores _ rfl
  | rememberState => exact absurd (.inl rfl) plain
  | restoreState => exact absurd (.inr rfl) plain
  | windowSave =>
      cases carried
      simp only [Instruction.effect]
      split
      · exact settles_window _
      · exact ⟨rfl, rfl, fun _ => rfl⟩
  | skipped opcode | nop =>
      cases carried
      exact ⟨rfl, rfl, fun _ => rfl⟩

end Settles

/-! Rows that are exchanged. -/
section Exchange

variable {target : Target} {entry : CfiEntry} {state after : RunState}

theorem step_remember (carried : step target entry .rememberState state = .ok after) :
    after = { state with table := { state.table with
      remembered := state.table.row :: state.table.remembered } } := by
  simp only [step, RuleTable.remember] at carried
  split at carried
  next table remembered =>
    split at remembered
    · cases remembered
    · cases remembered
      cases carried
      rfl
  next => cases carried

theorem step_restore {row : Row} {older : List Row} (held : state.table.remembered = row :: older)
    (carried : step target entry .restoreState state = .ok after) :
    after = { state with table := ⟨row, older⟩ } := by
  simp only [step, RuleTable.restore, held] at carried
  cases carried
  rfl

-- What fails has failed in its first part, or behind it.
theorem bind_error {operand : Except ε α} {follow : α → Except ε β} {fault : ε}
    (whole : operand >>= follow = .error fault) :
    operand = .error fault ∨ ∃ value, operand = .ok value ∧ follow value = .error fault := by
  cases operand with
  | error other =>
      cases whole
      exact .inl rfl
  | ok value => exact .inr ⟨value, rfl, whole⟩

end Exchange

/-! What instructions fail with. -/
section Failing

variable {target : Target} {entry : CfiEntry} {state : RunState} {holds : Fault → Prop}

def FailsAs (holds : Fault → Prop) (result : Except Fault α) : Prop :=
  ∀ fault, result = .error fault → holds fault

structure OfOperands (holds : Fault → Prop) : Prop where
  register number : holds (.registerOutOfRange number)
  factored units : holds (.factoredOffsetTooLarge units)
  frame offset : holds (.cfaOffsetTooLarge offset)

theorem fails_ok (value : α) : FailsAs holds (.ok value) := by
  rintro fault ⟨⟩

theorem fails_bind {operand : Except Fault α} {follow : α → Except Fault β}
    (first : FailsAs holds operand) (second : ∀ value, FailsAs holds (follow value)) :
    FailsAs holds (operand >>= follow) := by
  intro fault failed
  rcases bind_error failed with failed | ⟨value, -, failed⟩
  · exact first fault failed
  · exact second value fault failed

theorem exact_offset_fails {refusal : Fault} (refused : holds refusal) (offset : Int) :
    FailsAs holds (exactOffset refusal offset) := by
  unfold exactOffset
  split
  · exact fails_ok _
  · rintro fault ⟨⟩
    exact refused

section Operands

variable (operands : OfOperands holds)

include operands

theorem signed_offset_fails (cie : Cie) (units : Int64) : FailsAs holds (signedOffset cie units) :=
  exact_offset_fails (operands.factored _) _

theorem unsigned_offset_fails (cie : Cie) (units : UInt64) : FailsAs holds (unsignedOffset cie units) :=
  fails_bind (exact_offset_fails (operands.factored _) _) fun _ => exact_offset_fails (operands.factored _) _

theorem negated_offset_fails (cie : Cie) (units : UInt64) : FailsAs holds (negatedOffset cie units) :=
  fails_bind (unsigned_offset_fails operands cie units) fun _ => exact_offset_fails (operands.factored _) _

theorem cfa_offset_fails (offset : UInt64) : FailsAs holds (cfaOffset offset) :=
  exact_offset_fails (operands.frame offset) _

theorem column_fails (kind : SectionKind) (raw : UInt64) : FailsAs holds (target.column kind raw) := by
  unfold Target.column
  dsimp only
  split
  · exact fails_ok _
  · rintro fault ⟨⟩
    exact operands.register _

/-- An instruction is refused for its operands, or because too many rows are remembered already. -/
theorem step_fails_as (instruction : Instruction)
    (full : instruction = .rememberState → maxRemembered ≤ state.table.remembered.length →
      holds (.tooManyRememberedRows maxRemembered)) :
    FailsAs holds (step target entry instruction state) := by
  have column raw : FailsAs holds (target.column entry.kind raw) := column_fails operands entry.kind raw
  have signed := signed_offset_fails operands entry.cie
  have unsigned := unsigned_offset_fails operands entry.cie
  cases instruction with
  | setLoc | advanceLoc | defCfaExpression | skipped | nop => exact fails_ok _
  | defCfa =>
      exact fails_bind (column _) fun _ => fails_bind (cfa_offset_fails operands _) fun _ => fails_ok _
  | defCfaSf => exact fails_bind (column _) fun _ => fails_bind (signed _) fun _ => fails_ok _
  | defCfaOffset => exact fails_bind (cfa_offset_fails operands _) fun _ => fails_ok _
  | defCfaOffsetSf => exact fails_bind (signed _) fun _ => fails_ok _
  | defCfaRegister | undefined | sameValue | expression | valExpression | restore =>
      exact fails_bind (column _) fun _ => fails_ok _
  | offset | valOffset => exact fails_bind (unsigned _) fun _ => fails_bind (column _) fun _ => fails_ok _
  | offsetExtendedSf | valOffsetSf =>
      exact fails_bind (signed _) fun _ => fails_bind (column _) fun _ => fails_ok _
  | negativeOffsetExtended =>
      exact fails_bind (negated_offset_fails operands _ _) fun _ => fails_bind (column _) fun _ => fails_ok _
  | register => exact fails_bind (column _) fun _ => fails_bind (column _) fun _ => fails_ok _
  | windowSave =>
      simp only [step]
      split <;> exact fails_ok _
  | rememberState =>
      simp only [step, RuleTable.remember]
      split
      · exact fails_ok _
      next refused =>
        rintro fault ⟨⟩
        split at refused
        next many => exact full rfl many
        next => cases refused
  | restoreState =>
      simp only [step]
      split <;> exact fails_ok _

end Operands

def Fault.OfOperand (fault : Fault) : Prop := ∀ limit, fault ≠ .tooManyRememberedRows limit

def FailsByOperand (result : Except Fault α) : Prop := ∀ fault, result = .error fault → fault.OfOperand

/-- Only remembering one row too many is refused for that. -/
theorem step_fails (instruction : Instruction)
    (room : instruction = .rememberState → state.table.remembered.length < maxRemembered) :
    FailsByOperand (step target entry instruction state) := by
  have operands : OfOperands Fault.OfOperand := by constructor <;> rintro operand limit ⟨⟩
  exact step_fails_as operands instruction fun same full => absurd full (Nat.not_le.mpr (room same))

/-- Whatever an instruction is refused for, the entry is malformed. -/
theorem step_malformed (instruction : Instruction) :
    FailsAs (·.kind = .malformedFde) (step target entry instruction state) := by
  have operands : OfOperands (·.kind = .malformedFde) := by constructor <;> exact fun _ => rfl
  exact step_fails_as operands instruction fun _ _ => rfl

end Failing

end CallFrame
