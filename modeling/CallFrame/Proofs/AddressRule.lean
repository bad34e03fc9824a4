import CallFrame.Proofs.ColumnRules

/-!
The rule for the frame address. Four instructions put another rule in its place, three change a part of it
and presuppose that it is a register and an offset. Where it is an expression there is no part to change:
a new offset is ignored, with a warning. A new register is not: it makes a rule of its own, at offset zero,
and the expression is lost.
-/

namespace CallFrame

variable {target : Target} {entry : CfiEntry}

/-! What instructions do to the rule. -/
section Rule

def RunState.cfa (state : RunState) : Option CfaRule := state.table.row.cfa

def RunState.OnRegister (state : RunState) : Prop :=
  ∃ r offset, state.cfa = some (.registerAndOffset r offset)

def Instruction.replacesCfa : Instruction → Bool
  | .defCfa .. | .defCfaSf .. | .defCfaExpression _ | .restoreState => true
  | _ => false

def Instruction.namesCfaRegister : Instruction → Bool
  | .defCfaRegister _ => true
  | _ => false

def Instruction.givesCfaOffset : Instruction → Bool
  | .defCfaOffset _ | .defCfaOffsetSf _ => true
  | _ => false

variable {state after : RunState} {e : Expression}

theorem offset_on_expression (held : state.cfa = some (.expression e)) (offset : Int64) :
    state.setCfaOffset offset = state.warn .cfaOffsetAlone := by
  unfold RunState.cfa at held
  simp only [RunState.setCfaOffset, held]

theorem register_on_expression (held : state.cfa = some (.expression e)) (r : Register) :
    state.setCfaRegister r = (state.warn .cfaRegisterAlone).setCfa (.registerAndOffset r 0) := by
  unfold RunState.cfa at held
  simp only [RunState.setCfaRegister, held]

theorem offset_on_register (held : state.OnRegister) (offset : Int64) :
    (state.setCfaOffset offset).OnRegister := by
  obtain ⟨r, old, held⟩ := held
  unfold RunState.cfa at held
  simp only [RunState.setCfaOffset, held]
  exact ⟨r, offset, rfl⟩

-- Whatever the rule was before.
theorem register_on_any (r : Register) : (state.setCfaRegister r).OnRegister := by
  unfold RunState.setCfaRegister
  split <;> exact ⟨r, _, rfl⟩

theorem save_window_cfa (size : UInt8) : (state.saveWindow size).cfa = state.cfa := by
  simp only [RunState.saveWindow]
  rw [fold_keeps RunState.cfa, fold_keeps RunState.cfa]
  · intros
    rfl
  · intros
    rfl

theorem move_cfa (location : UInt64) : (state.moveTo location).cfa = state.cfa := by
  unfold RunState.moveTo
  dsimp only
  split <;> rfl

/-- All other instructions leave the rule as it is. -/
theorem step_cfa (instruction : Instruction) (keeps : instruction.replacesCfa = false)
    (noRegister : instruction.namesCfaRegister = false) (noOffset : instruction.givesCfaOffset = false)
    (carried : step target entry instruction state = .ok after) : after.cfa = state.cfa := by
  cases instruction with
  | defCfa | defCfaSf | defCfaExpression | restoreState => cases keeps
  | defCfaRegister => cases noRegister
  | defCfaOffset | defCfaOffsetSf => cases noOffset
  | setLoc address =>
      cases carried
      exact move_cfa _
  | advanceLoc | skipped | nop =>
      cases carried
      rfl
  | undefined | sameValue | expression | valExpression | restore =>
      obtain ⟨column, -, carried⟩ := bind_ok carried
      cases carried
      rfl
  | offset | offsetExtendedSf | negativeOffsetExtended | valOffset | valOffsetSf | register =>
      obtain ⟨operand, -, carried⟩ := bind_ok carried
      obtain ⟨column, -, carried⟩ := bind_ok carried
      cases carried
      rfl
  | rememberState =>
      rw [step_remember carried]
      rfl
  | windowSave =>
      cases carried
      split
      · exact save_window_cfa _
      · rfl

end Rule

/-! Instructions that change a part of the rule, carried out on an expression. -/
section Parts

/-- A new offset is ignored, with a warning, or refused; a new register makes a rule of its own, or is
refused. -/
structure PartsChanged (target : Target) (entry : CfiEntry) (state : RunState) : Prop where
  offset (offset : UInt64) : step target entry (.defCfaOffset offset) state =
    (cfaOffset offset).map fun _ => state.warn .cfaOffsetAlone
  factored (units : Int64) : step target entry (.defCfaOffsetSf units) state =
    (signedOffset entry.cie units).map fun _ => state.warn .cfaOffsetAlone
  register (raw : UInt64) : step target entry (.defCfaRegister raw) state =
    (target.column entry.kind raw).map fun column =>
      (state.warn .cfaRegisterAlone).setCfa (.registerAndOffset column 0)

variable {state after : RunState} {e : Expression}

theorem parts_changed (held : state.cfa = some (.expression e)) : PartsChanged target entry state where
  offset offset := by
    simp only [step, offset_on_expression held]
    cases cfaOffset offset <;> rfl
  factored units := by
    simp only [step, offset_on_expression held]
    cases signedOffset entry.cie units <;> rfl
  register raw := by
    simp only [step, register_on_expression held]
    cases target.column entry.kind raw <;> rfl

end Parts

/-! Runs in which no whole rule is put in place. -/
section Runs

variable {state after : RunState} {e : Expression}

/-- A register that is named gets a rule, whatever the rule was. -/
theorem step_named (instruction : Instruction) (names : instruction.namesCfaRegister = true)
    (carried : step target entry instruction state = .ok after) : after.OnRegister := by
  cases instruction with
  | defCfaRegister =>
      obtain ⟨column, -, carried⟩ := bind_ok carried
      cases carried
      exact register_on_any column
  | _ => cases names

/-- A new offset goes into the rule that there is. -/
theorem step_offset (instruction : Instruction) (gives : instruction.givesCfaOffset = true)
    (carried : step target entry instruction state = .ok after) :
    ∃ offset, after = state.setCfaOffset offset := by
  cases instruction with
  | defCfaOffset | defCfaOffsetSf =>
      obtain ⟨offset, -, carried⟩ := bind_ok carried
      cases carried
      exact ⟨offset, rfl⟩
  | _ => cases gives

theorem step_on_register (instruction : Instruction) (keeps : instruction.replacesCfa = false)
    (held : state.OnRegister) (carried : step target entry instruction state = .ok after) :
    after.OnRegister := by
  cases names : instruction.namesCfaRegister with
  | true => exact step_named instruction names carried
  | false =>
      cases gives : instruction.givesCfaOffset with
      | true =>
          obtain ⟨offset, rfl⟩ := step_offset instruction gives carried
          exact offset_on_register held offset
      | false =>
          unfold RunState.OnRegister
          rw [step_cfa instruction keeps names gives carried]
          exact held

/-- An expression is kept, unless a register is named for it. -/
theorem step_on_expression (instruction : Instruction) (keeps : instruction.replacesCfa = false)
    (noRegister : instruction.namesCfaRegister = false) (held : state.cfa = some (.expression e))
    (carried : step target entry instruction state = .ok after) : after.cfa = some (.expression e) := by
  cases gives : instruction.givesCfaOffset with
  | true =>
      obtain ⟨offset, rfl⟩ := step_offset instruction gives carried
      rw [offset_on_expression held]
      exact held
  | false =>
      rw [step_cfa instruction keeps noRegister gives carried]
      exact held

theorem carry_out_on_register (program : List Instruction)
    (keeps : ∀ instruction ∈ program, instruction.replacesCfa = false) (held : state.OnRegister)
    (carried : carryOut target entry program state = .ok after) : after.OnRegister := by
  refine carry_out_keeps (fun instruction member before after held first => ?_) held carried
  exact step_on_register instruction (keeps instruction member) held first

theorem carry_out_on_expression (program : List Instruction)
    (keeps : ∀ instruction ∈ program, instruction.replacesCfa = false)
    (noRegister : ∀ instruction ∈ program, instruction.namesCfaRegister = false)
    (held : state.cfa = some (.expression e)) (carried : carryOut target entry program state = .ok after) :
    after.cfa = some (.expression e) := by
  refine @carry_out_keeps target entry (·.cfa = some (.expression e)) program state after
    (fun instruction member _ _ held first => ?_) held carried
  exact step_on_expression instruction (keeps instruction member) (noRegister instruction member) held first

/-- Once a register is named, the rule is a register and an offset, whatever it was. -/
theorem carry_out_named (program : List Instruction)
    (keeps : ∀ instruction ∈ program, instruction.replacesCfa = false)
    (named : ∃ instruction ∈ program, instruction.namesCfaRegister = true)
    (carried : carryOut target entry program state = .ok after) : after.OnRegister := by
  obtain ⟨instruction, member, names⟩ := named
  obtain ⟨before, behind, rfl⟩ := List.append_of_mem member
  rw [carry_out_append] at carried
  obtain ⟨middle, -, carried⟩ := bind_ok carried
  rw [carry_out_cons] at carried
  obtain ⟨next, named, carried⟩ := bind_ok carried
  have lost := step_named instruction names named
  refine carry_out_on_register behind (fun other member => keeps other ?_) lost carried
  exact List.mem_append_right _ (List.mem_cons_of_mem _ member)

theorem on_register_other (held : state.OnRegister) : state.cfa ≠ some (.expression e) := by
  obtain ⟨r, offset, held⟩ := held
  rw [held]
  rintro ⟨⟩

end Runs

/-! Both programs of an entry. -/
section Interpreted

/-- Interpreting the entry for the address comes to the state, and goes on with these instructions. -/
inductive Reaches (target : Target) (entry : CfiEntry) (initReg : Register → RegisterRule) (pc : UInt64)
    (state : RunState) : List Instruction → Prop
  | inShared (before behind : List Instruction)
      (ran : (executed target entry initReg pc).shared = before ++ behind)
      (carried : carryOut target entry before (entry.seed target initReg) = .ok state) :
      Reaches target entry initReg pc state (behind ++ (executed target entry initReg pc).own)
  | inOwn (before behind : List Instruction) (shared : RunState)
      (ended : carryOut target entry (executed target entry initReg pc).shared
        (entry.seed target initReg) = .ok shared)
      (ran : (executed target entry initReg pc).own = before ++ behind)
      (carried : carryOut target entry before shared.handOver = .ok state) :
      Reaches target entry initReg pc state behind

variable {initReg : Register → RegisterRule} {pc : UInt64} {state : RunState} {rest : List Instruction}
  {e : Expression}

/-- What is executed behind a state that is reached leads to the row that interpreting yields. Between the
two programs the row for restoring registers is exchanged, which is nothing to the rule. -/
theorem reached_row (reached : Reaches target entry initReg pc state rest) :
    ∃ first second ended started last, rest = first ++ second ∧
      carryOut target entry first state = .ok ended ∧ started.cfa = ended.cfa ∧
      carryOut target entry second started = .ok last ∧
      last.cfa = (execute target entry initReg pc).1.row.cfa := by
  obtain ⟨ended, last, first, second, row⟩ := @executed_carried target entry initReg pc
  cases reached with
  | inShared before behind ran carried =>
      rw [ran, carry_out_append, carried] at first
      exact ⟨behind, _, ended, ended.handOver, last, rfl, first, rfl, second, congrArg Row.cfa row.symm⟩
  | inOwn before behind shared finished ran carried =>
      cases finished.symm.trans first
      rw [ran, carry_out_append, carried] at second
      exact ⟨rest, [], last, last, last, (List.append_nil _).symm, second, rfl, rfl,
        congrArg Row.cfa row.symm⟩

theorem reached_cfa (reached : Reaches target entry initReg pc state rest)
    (held : state.cfa = some (.expression e)) (keeps : ∀ instruction ∈ rest, instruction.replacesCfa = false) :
    (execute target entry initReg pc).1.row.cfa = some (.expression e) ↔
      ∀ instruction ∈ rest, instruction.namesCfaRegister = false := by
  obtain ⟨first, second, ended, started, last, rfl, ran, handed, ran', row⟩ := reached_row reached
  rw [List.forall_mem_append] at keeps
  rw [← row]
  constructor
  · intro kept instruction member
    refine Bool.eq_false_iff.mpr fun names => on_register_other ?_ kept
    rcases List.mem_append.mp member with member | member
    · obtain ⟨r, offset, lost⟩ := carry_out_named first keeps.1 ⟨instruction, member, names⟩ ran
      exact carry_out_on_register second keeps.2 ⟨r, offset, handed.trans lost⟩ ran'
    · exact carry_out_named second keeps.2 ⟨instruction, member, names⟩ ran'
  · intro noRegister
    rw [List.forall_mem_append] at noRegister
    have kept := carry_out_on_expression first keeps.1 noRegister.1 held ran
    exact carry_out_on_expression second keeps.2 noRegister.2 (handed.trans kept) ran'

/-- Let the rule for the frame address be an expression. A new offset for it is ignored with a warning, or
refused for its operand; a new register is refused for its operand, or makes a rule of its own at offset
zero, and that too is worth a warning. So over instructions none of which puts a whole rule in place, the
expression stays the rule just as long as none of them names a register for it; and over the rest of both
programs, where interpreting the entry comes to the state, likewise. -/
theorem expression_kept_exact (target : Target) (entry : CfiEntry) (state : RunState) (e : Expression)
    (held : state.cfa = some (.expression e)) :
    PartsChanged target entry state ∧
      (∀ program after, carryOut target entry program state = .ok after →
        (∀ instruction ∈ program, instruction.replacesCfa = false) →
        (after.cfa = some (.expression e) ↔ ∀ instruction ∈ program, instruction.namesCfaRegister = false)) ∧
      ∀ initReg pc rest, Reaches target entry initReg pc state rest →
        (∀ instruction ∈ rest, instruction.replacesCfa = false) →
        ((execute target entry initReg pc).1.row.cfa = some (.expression e) ↔
          ∀ instruction ∈ rest, instruction.namesCfaRegister = false) := by
  refine ⟨parts_changed held, fun program after carried keeps => ?_, fun initReg pc rest reached keeps =>
    reached_cfa reached held keeps⟩
  constructor
  · intro kept instruction member
    refine Bool.eq_false_iff.mpr fun names => on_register_other ?_ kept
    exact carry_out_named program keeps ⟨instruction, member, names⟩ carried
  · intro noRegister
    exact carry_out_on_expression program keeps noRegister held carried

end Interpreted

/-! A frame address by expression. -/
section Sample

/-- A function whose frame address is an expression from the shared program on, and whose own program gives
it an offset, and later a register. -/
def aboveExpression : CfiEntry :=
  { growingFrame with
    cie := { growingFrame.cie with program := [0x0f, 2, 0x77, 8] }
    fde := { growingFrame.fde with program := [0x0e, 16, 0x41, 0x0d, 6] } }

def expressionInPlace : RunState :=
  ((aboveExpression.seed smallTarget fun _ => .unspecified).setCfa (.expression ⟨[0x77, 8]⟩)).handOver

theorem above_expression_started (pc : UInt64)
    (ran : (executed smallTarget aboveExpression (fun _ => .unspecified) pc).shared =
      [.defCfaExpression ⟨[0x77, 8]⟩]) :
    Reaches smallTarget aboveExpression (fun _ => .unspecified) pc expressionInPlace
      (executed smallTarget aboveExpression (fun _ => .unspecified) pc).own :=
  .inOwn [] _ ((aboveExpression.seed smallTarget fun _ => .unspecified).setCfa (.expression ⟨[0x77, 8]⟩))
    (by rw [ran]; rfl) rfl rfl

theorem above_expression_reached :
    Reaches smallTarget aboveExpression (fun _ => .unspecified) 0x1000 expressionInPlace
        [.defCfaOffset 16, .advanceLoc 1] ∧
      Reaches smallTarget aboveExpression (fun _ => .unspecified) 0x1001 expressionInPlace
        [.defCfaOffset 16, .advanceLoc 1, .defCfaRegister 6] := by
  have before : (executed smallTarget aboveExpression (fun _ => .unspecified) 0x1000).own =
      [.defCfaOffset 16, .advanceLoc 1] := by decide +kernel
  have behind : (executed smallTarget aboveExpression (fun _ => .unspecified) 0x1001).own =
      [.defCfaOffset 16, .advanceLoc 1, .defCfaRegister 6] := by decide +kernel
  rw [← before, ← behind]
  exact ⟨above_expression_started 0x1000 (by decide +kernel),
    above_expression_started 0x1001 (by decide +kernel)⟩

theorem expression_kept_exact_above :
    expressionInPlace.cfa = some (.expression ⟨[0x77, 8]⟩) ∧
      (execute smallTarget aboveExpression (fun _ => .unspecified) 0x1000).1.row.cfa =
        some (.expression ⟨[0x77, 8]⟩) ∧
      (execute smallTarget aboveExpression (fun _ => .unspecified) 0x1001).1.row.cfa ≠
        some (.expression ⟨[0x77, 8]⟩) := by
  have held : expressionInPlace.cfa = some (.expression ⟨[0x77, 8]⟩) := rfl
  obtain ⟨before, behind⟩ := above_expression_reached
  obtain ⟨-, -, ends⟩ :=
    expression_kept_exact smallTarget aboveExpression expressionInPlace ⟨[0x77, 8]⟩ held
  refine ⟨held, ?_, ?_⟩
  · exact (ends _ _ _ before (by decide)).mpr (by decide)
  · rw [Ne, ends _ _ _ behind (by decide)]
    decide

/-- None of the instructions that put a whole rule in place is executed behind the expression, and yet the
row for 0x1001 has another rule: the register 6, at an offset that nobody has described. -/
theorem register_displaces_expression :
    (executed smallTarget aboveExpression (fun _ => .unspecified) 0x1001).shared =
        [.defCfaExpression ⟨[0x77, 8]⟩] ∧
      (executed smallTarget aboveExpression (fun _ => .unspecified) 0x1001).own =
        [.defCfaOffset 16, .advanceLoc 1, .defCfaRegister 6] ∧
      (execute smallTarget aboveExpression (fun _ => .unspecified) 0x1001).1.row.cfa =
        some (.registerAndOffset ⟨6⟩ 0) ∧
      (execute smallTarget aboveExpression (fun _ => .unspecified) 0x1001).2 =
        [.cfaOffsetAlone, .cfaRegisterAlone] := by
  decide +kernel

end Sample

end CallFrame
