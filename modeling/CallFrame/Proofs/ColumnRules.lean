import CallFrame.Proofs.Brackets

/-!
What programs mean, column by column. As long as no rows are exchanged, the rule of a column is decided
by the last instruction that names it, and by no other. The only way back is to the rule that the column
had before the program that restores it: the rule from before any program in the shared one, and what the
shared one has left in the function's own.
-/

namespace CallFrame

variable {target : Target} {entry : CfiEntry}

/-! The instructions that are executed. -/
section Executed

/-- The instructions of a program that are carried out on the way to `pc`. One that fails is none of them,
and neither is any behind it. -/
def carriedOut (target : Target) (entry : CfiEntry) (pc : UInt64) :
    List (Except Fault Instruction) → RunState → List Instruction
  | [], _ => []
  | next :: rest, state =>
    if pc < state.location then []
    else match next with
      | .error _ => []
      | .ok instruction =>
        match step target entry instruction state with
        | .error _ => []
        | .ok after => instruction :: carriedOut target entry pc rest after

structure Executed where
  shared : List Instruction
  own : List Instruction

/-- The instructions that interpreting the entry for `pc` executes: none at all if the return column is
out of range, and none of the function's own program if the shared one cannot be continued. -/
def executed (target : Target) (entry : CfiEntry) (initReg : Register → RegisterRule) (pc : UInt64) :
    Executed :=
  match entry.returnColumn target with
  | .error _ => ⟨[], []⟩
  | .ok _ =>
    let seed := entry.seed target initReg
    { shared := carriedOut target entry pc entry.initialProgram seed
      own := match run target entry pc entry.initialProgram seed with
        | (_, some _) => []
        | (state, none) => carriedOut target entry pc entry.program state.handOver }

theorem carry_out_carried (pc : UInt64) (program : List (Except Fault Instruction)) (state : RunState) :
    carryOut target entry (carriedOut target entry pc program state) state =
      .ok (run target entry pc program state).1 := by
  induction program generalizing state with
  | nil => rfl
  | cons next rest ih =>
      unfold carriedOut run
      by_cases past : pc < state.location
      · rw [if_pos past, if_pos past]
        rfl
      rw [if_neg past, if_neg past]
      cases next with
      | error fault => rfl
      | ok instruction =>
          cases carried : step target entry instruction state with
          | error fault =>
              simp only [bind, Except.bind, carried]
              rfl
          | ok after =>
              simp only [bind, Except.bind, carried, carry_out_cons]
              exact ih after

/-- Executing these instructions leads to the row that interpreting yields. -/
theorem executed_carried (initReg : Register → RegisterRule) (pc : UInt64) :
    ∃ shared own, carryOut target entry (executed target entry initReg pc).shared
        (entry.seed target initReg) = .ok shared ∧
      carryOut target entry (executed target entry initReg pc).own shared.handOver = .ok own ∧
      (execute target entry initReg pc).1.row = own.table.row := by
  unfold executed execute
  cases entry.returnColumn target with
  | error fault => exact ⟨_, _, rfl, rfl, rfl⟩
  | ok column =>
      have first := @carry_out_carried target entry pc entry.initialProgram
        (entry.seed target initReg)
      dsimp only [runEntry]
      rcases ran : run target entry pc entry.initialProgram (entry.seed target initReg) with
        ⟨shared, _ | fault⟩
      · rw [ran] at first
        have second := @carry_out_carried target entry pc entry.program shared.handOver
        refine ⟨shared, _, first, second, ?_⟩
        dsimp only
        rcases run target entry pc entry.program shared.handOver with ⟨own, _ | fault⟩ <;> rfl
      · rw [ran] at first
        exact ⟨shared, shared.handOver, first, rfl, rfl⟩

end Executed

/-! The last instruction that names a column. -/
section Last

def lastEffect (target : Target) (entry : CfiEntry) (program : List Instruction) (r : Register) :
    Option ColumnEffect :=
  program.reverse.findSome? (·.effect target entry r)

def settled (target : Target) (entry : CfiEntry) (r : Register) (start : RegisterRule)
    (program : List Instruction) : RegisterRule :=
  ColumnEffect.settle start start (lastEffect target entry program r)

theorem last_effect_cons (instruction : Instruction) (program : List Instruction) (r : Register) :
    lastEffect target entry (instruction :: program) r =
      (lastEffect target entry program r).or (instruction.effect target entry r) := by
  rw [lastEffect, List.reverse_cons, List.findSome?_append, List.findSome?_singleton, lastEffect]

theorem settles_trans {state middle after : RunState} {first second : Register → Option ColumnEffect}
    (before : state.Settles middle first) (behind : middle.Settles after second) :
    state.Settles after fun r => (second r).or (first r) := by
  refine ⟨behind.initial.trans before.initial, behind.remembered.trans before.remembered, fun r => ?_⟩
  rw [behind.rule, before.initial, before.rule]
  rcases second r with _ | rule | _ <;> rfl

theorem carry_out_settles (program : List Instruction)
    (plain : ∀ instruction ∈ program, ¬ instruction.ExchangesRows) (state after : RunState)
    (carried : carryOut target entry program state = .ok after) :
    state.Settles after (lastEffect target entry program) := by
  induction program generalizing state with
  | nil =>
      cases carried
      exact ⟨rfl, rfl, fun _ => rfl⟩
  | cons instruction program ih =>
      rw [carry_out_cons] at carried
      obtain ⟨middle, first, carried⟩ := bind_ok carried
      have before := step_settles instruction (plain instruction List.mem_cons_self) middle first
      have behind := ih (fun other member => plain other (List.mem_cons_of_mem _ member)) middle carried
      have whole := settles_trans before behind
      simp only [← last_effect_cons] at whole
      exact whole

end Last

/-- The rule of a column before any program: what the architecture says, for the columns that there are
then. The return address is unchanged where it says nothing. -/
def CfiEntry.seededRule (entry : CfiEntry) (target : Target) (initReg : Register → RegisterRule)
    (r : Register) : RegisterRule :=
  if r.number.toNat < entry.seedCount target then
    match initReg r with
    | .unspecified => if entry.returnColumn target = .ok r then .sameValue else .unspecified
    | rule => rule
  else .unspecified

theorem seeded_rule (initReg : Register → RegisterRule) (r : Register) :
    (entry.seed target initReg).table.row.rule r = entry.seededRule target initReg r := by
  unfold CfiEntry.seededRule
  by_cases inside : r.number.toNat < entry.seedCount target
  · have returns : (r = (entry.returnColumn target).toOption.getD noColumn) ↔
        entry.returnColumn target = .ok r := by
      cases column : entry.returnColumn target with
      | ok column => simp [Except.toOption, eq_comm]
      | error fault =>
          -- the column that stands in for the missing one is beyond those of the target
          have few := target.numRegs.toNat_lt
          rw [CfiEntry.seedCount, column] at inside
          simp only [Except.toOption, Option.getD_none, reduceCtorEq, iff_false]
          rintro rfl
          change 0xffff < target.numRegs.toNat at inside
          omega
    rw [if_pos inside, seed_rule initReg r inside, seedRule]
    cases initReg r with
    | unspecified => exact if_congr returns rfl rfl
    | _ => rfl
  · rw [if_neg inside, seed_outside r inside]

/-- Let interpreting an entry for an address execute no instruction that exchanges rows. Then the rule of
every column in the row that it yields is decided by the last instruction of the function's own program
that was executed and names the column; if there is none, or if it restores the column, by the last such
one of the shared program; and if there is none, or if that one restores the column, it is the rule that
the column had before any program. -/
theorem column_rule_exact (target : Target) (entry : CfiEntry) (initReg : Register → RegisterRule)
    (pc : UInt64)
    (plain : ∀ instruction ∈ (executed target entry initReg pc).shared ++
      (executed target entry initReg pc).own, ¬ instruction.ExchangesRows) (r : Register) :
    (execute target entry initReg pc).1.row.rule r =
      settled target entry r
        (settled target entry r (entry.seededRule target initReg r) (executed target entry initReg pc).shared)
        (executed target entry initReg pc).own := by
  obtain ⟨shared, own, first, second, row⟩ := @executed_carried target entry initReg pc
  generalize executed target entry initReg pc = ran at plain first second
  have before := carry_out_settles ran.shared (fun i member => plain i (List.mem_append_left _ member)) _ _ first
  have behind := carry_out_settles ran.own (fun i member => plain i (List.mem_append_right _ member)) _ _ second
  have seeded : shared.table.row.rule r =
      settled target entry r (entry.seededRule target initReg r) ran.shared := by
    rw [before.rule, settled, ← seeded_rule]
    rfl
  rw [row, behind.rule, settled, ← seeded]
  rfl

/-- A function whose own program saves a register, a register window and restores the register, and loses
the return address, which the window has saved. Its last instruction is beyond 0x1001. -/
def windowedFrame : CfiEntry :=
  { growingFrame with
    cie := { growingFrame.cie with program := [0x0c, 7, 8, 0x90, 1, 0x08, 3] }
    fde := { growingFrame.fde with program := [0x83, 2, 0x2d, 0x07, 16, 0x41, 0xc3, 0x41, 0x07, 3] } }

theorem column_rule_exact_windowed :
    let target := { smallTarget with registerWindows := true }
    let initReg : Register → RegisterRule := fun r => if r = ⟨7⟩ then .cfaValue else .unspecified
    let rule := (execute target windowedFrame initReg 0x1001).1.row.rule
    (∀ instruction ∈ (executed target windowedFrame initReg 0x1001).shared ++
      (executed target windowedFrame initReg 0x1001).own, ¬ instruction.ExchangesRows) ∧
      rule ⟨3⟩ = .sameValue ∧ rule ⟨7⟩ = .cfaValue ∧ rule ⟨16⟩ = .undefined ∧
      rule ⟨8⟩ = .savedInRegister ⟨24⟩ ∧ rule ⟨31⟩ = .savedAtOffset 120 ∧ rule ⟨32⟩ = .unspecified := by
  intro target initReg rule
  have plain : ∀ instruction ∈ (executed target windowedFrame initReg 0x1001).shared ++
      (executed target windowedFrame initReg 0x1001).own, ¬ instruction.ExchangesRows := by decide +kernel
  have exact (r : Register) := column_rule_exact target windowedFrame initReg 0x1001 plain r
  refine ⟨plain, ?_, ?_, ?_, ?_, ?_, ?_⟩ <;> refine (exact _).trans ?_ <;> decide +kernel

end CallFrame
