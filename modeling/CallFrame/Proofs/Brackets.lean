import CallFrame.Proofs.Decoding
import CallFrame.Proofs.StepOutcome
import Mathlib.Data.List.Infix

/-!
Remembering and restoring as brackets. Only these two instructions touch the remembered rows. So a
program that closes as many brackets as it opens, and none that it has not opened, leaves the remembered
rows as it found them, whatever else it does. Between two brackets of its own it leaves nothing behind
but a location: the restoring at its end finds the row that was remembered before it.
-/

namespace CallFrame

variable {target : Target} {entry : CfiEntry}

/-! Instructions carried out one after another. -/
section CarryOut

def carryOut (target : Target) (entry : CfiEntry) (program : List Instruction) (state : RunState) :
    Except Fault RunState :=
  program.foldlM (fun state instruction => step target entry instruction state) state

theorem carry_out_cons (instruction : Instruction) (program : List Instruction) (state : RunState) :
    carryOut target entry (instruction :: program) state =
      step target entry instruction state >>= carryOut target entry program :=
  List.foldlM_cons

theorem carry_out_append (first second : List Instruction) (state : RunState) :
    carryOut target entry (first ++ second) state =
      carryOut target entry first state >>= carryOut target entry second :=
  List.foldlM_append

/-- What each instruction keeps, the program keeps. -/
theorem carry_out_keeps {holds : RunState → Prop} {program : List Instruction} {state after : RunState}
    (steps : ∀ instruction ∈ program, ∀ before after, holds before →
      step target entry instruction before = .ok after → holds after)
    (start : holds state) (carried : carryOut target entry program state = .ok after) : holds after := by
  induction program generalizing state with
  | nil =>
      cases carried
      exact start
  | cons instruction program ih =>
      rw [carry_out_cons] at carried
      obtain ⟨middle, first, carried⟩ := bind_ok carried
      have kept := steps instruction List.mem_cons_self state middle start first
      exact ih (fun other member => steps other (List.mem_cons_of_mem _ member)) kept carried

end CarryOut

/-! Brackets in a program. -/
section Nesting

def openBrackets (program : List Instruction) : Nat :=
  program.count .rememberState - program.count .restoreState

def Balanced (program : List Instruction) : Prop :=
  (∀ start ∈ program.inits, start.count .restoreState ≤ start.count .rememberState) ∧
    program.count .restoreState = program.count .rememberState

instance (program : List Instruction) : Decidable (Balanced program) :=
  inferInstanceAs (Decidable (_ ∧ _))

def nestingDepth (program : List Instruction) : Nat :=
  (program.inits.map openBrackets).max?.getD 0

theorem open_le_nesting {start program : List Instruction} (begins : start <+: program) :
    start.count .rememberState ≤ start.count .restoreState + nestingDepth program := by
  have member : openBrackets start ∈ program.inits.map openBrackets :=
    List.mem_map_of_mem ((List.mem_inits start program).mpr begins)
  have bound : openBrackets start ≤ nestingDepth program := List.le_max?_getD_of_mem member
  unfold openBrackets at bound
  omega

/-- With `held` rows on top that are its own, the program closes none of the brackets below them. -/
def ClosesWithin (held : Nat) (program : List Instruction) : Prop :=
  ∀ start, start <+: program → start.count .restoreState ≤ held + start.count .rememberState

def HasRoom (held : Nat) (program : List Instruction) : Prop :=
  ∀ start, start <+: program →
    held + start.count .rememberState ≤ maxRemembered + start.count .restoreState

theorem closes_behind {instruction : Instruction} {program : List Instruction} {held held' : Nat}
    (closes : ClosesWithin held (instruction :: program))
    (left : held' + [instruction].count .restoreState = held + [instruction].count .rememberState) :
    ClosesWithin held' program := by
  intro start begins
  have whole := closes (instruction :: start) (List.cons_prefix_cons.mpr ⟨rfl, begins⟩)
  rw [← List.singleton_append, List.count_append, List.count_append] at whole
  omega

theorem room_behind {instruction : Instruction} {program : List Instruction} {held held' : Nat}
    (room : HasRoom held (instruction :: program))
    (left : held' + [instruction].count .restoreState = held + [instruction].count .rememberState) :
    HasRoom held' program := by
  intro start begins
  have whole := room (instruction :: start) (List.cons_prefix_cons.mpr ⟨rfl, begins⟩)
  rw [← List.singleton_append, List.count_append, List.count_append] at whole
  omega

end Nesting

/-! Runs between brackets. -/
section Between

variable {state after : RunState}

/-- What a step does to the remembered rows, `own` of which are above those that are not to be touched.
-/
theorem step_between (instruction : Instruction) (own below : List Row)
    (held : state.table.remembered = own ++ below)
    (closes : [instruction].count .restoreState ≤ own.length + [instruction].count .rememberState)
    (carried : step target entry instruction state = .ok after) :
    after.initial = state.initial ∧ ∃ own', after.table.remembered = own' ++ below ∧
      own'.length + [instruction].count .restoreState =
        own.length + [instruction].count .rememberState := by
  by_cases exchange : instruction.ExchangesRows
  · rcases exchange with rfl | rfl
    · rw [step_remember carried]
      exact ⟨rfl, state.table.row :: own, congrArg _ held, rfl⟩
    · cases own with
      | nil => exact absurd closes (by decide)
      | cons row own =>
          rw [step_restore held carried]
          exact ⟨rfl, own, rfl, rfl⟩
  · have settled := step_settles instruction exchange after carried
    have opens : [instruction].count .rememberState = 0 := by
      simpa [List.count_singleton] using fun same => exchange (.inl same)
    have closed : [instruction].count .restoreState = 0 := by
      simpa [List.count_singleton] using fun same => exchange (.inr same)
    exact ⟨settled.initial, own, settled.remembered.trans held, by rw [opens, closed]⟩

/-- The same for a run: the rows below are not touched, and as many rows are above them as brackets are
open. -/
theorem carry_out_between (program : List Instruction) (own below : List Row)
    (held : state.table.remembered = own ++ below) (closes : ClosesWithin own.length program)
    (carried : carryOut target entry program state = .ok after) :
    after.initial = state.initial ∧ ∃ own', after.table.remembered = own' ++ below ∧
      own'.length + program.count .restoreState = own.length + program.count .rememberState := by
  induction program generalizing state own with
  | nil =>
      cases carried
      exact ⟨rfl, own, held, rfl⟩
  | cons instruction program ih =>
      rw [carry_out_cons] at carried
      obtain ⟨middle, first, carried⟩ := bind_ok carried
      have one : [instruction] <+: instruction :: program := List.cons_prefix_cons.mpr ⟨rfl, List.nil_prefix⟩
      obtain ⟨initial, own', held', left⟩ := step_between instruction own below held (closes _ one) first
      obtain ⟨initial', own'', held'', left'⟩ := ih own' held' (closes_behind closes left) carried
      refine ⟨initial'.trans initial, own'', held'', ?_⟩
      rw [← List.singleton_append, List.count_append, List.count_append]
      omega

/-- A run that has room for the rows it remembers is not refused for them. -/
theorem carry_out_fails (program : List Instruction)
    (closes : ClosesWithin state.table.remembered.length program)
    (room : HasRoom state.table.remembered.length program) :
    FailsByOperand (carryOut target entry program state) := by
  induction program generalizing state with
  | nil => exact fails_ok _
  | cons instruction program ih =>
      have one : [instruction] <+: instruction :: program := List.cons_prefix_cons.mpr ⟨rfl, List.nil_prefix⟩
      have few : instruction = .rememberState → state.table.remembered.length < maxRemembered := by
        rintro rfl
        exact room _ one
      rw [carry_out_cons]
      intro fault failed
      rcases bind_error failed with failed | ⟨middle, first, failed⟩
      · exact step_fails instruction few fault failed
      · obtain ⟨-, own, held, left⟩ := step_between instruction state.table.remembered []
          (List.append_nil _).symm (closes _ one) first
        rw [List.append_nil] at held
        rw [← held] at left
        exact ih (closes_behind closes left) (room_behind room left) fault failed

end Between

/-! A program put into brackets. -/
section Bracketed

variable {program : List Instruction} {state : RunState}

theorem bracketed_run (program : List Instruction) (state : RunState) :
    carryOut target entry (.rememberState :: program ++ [.restoreState]) state =
      step target entry .rememberState state >>= fun opened =>
        carryOut target entry program opened >>= fun inside => step target entry .restoreState inside := by
  rw [List.cons_append, carry_out_cons]
  congr 1
  funext opened
  rw [carry_out_append]
  congr 1
  funext inside
  rw [carry_out_cons]
  exact bind_pure _

theorem balanced_closes (balanced : Balanced program) : ClosesWithin 0 program := by
  intro start begins
  have closed := balanced.1 start ((List.mem_inits start program).mpr begins)
  omega

/-- The restoring at the end finds the row that was remembered at the start. -/
theorem bracket_restores (balanced : Balanced program) {after : RunState}
    (carried : carryOut target entry (.rememberState :: program ++ [.restoreState]) state = .ok after) :
    after = { state with location := after.location, warnings := after.warnings } := by
  rw [bracketed_run] at carried
  obtain ⟨opened, first, carried⟩ := bind_ok carried
  obtain ⟨inside, between, last⟩ := bind_ok carried
  have remembered := step_remember first
  obtain ⟨initial, own, held, left⟩ :=
    carry_out_between program [] opened.table.remembered rfl (balanced_closes balanced) between
  have none_open : own = [] := by
    rw [balanced.2] at left
    exact List.eq_nil_of_length_eq_zero (by simpa using left)
  rw [none_open, List.nil_append, remembered] at held
  rw [remembered] at initial
  rw [step_restore held last]
  simp only [initial]

/-- With room for one row more than the program remembers at a time, none is refused. -/
theorem bracket_fails (balanced : Balanced program)
    (room : state.table.remembered.length + 1 + nestingDepth program ≤ maxRemembered) :
    FailsByOperand (carryOut target entry (.rememberState :: program ++ [.restoreState]) state) := by
  rw [bracketed_run]
  intro fault refused
  rcases bind_error refused with refused | ⟨opened, first, refused⟩
  · exact step_fails .rememberState (fun _ => by omega) fault refused
  rcases bind_error refused with refused | ⟨inside, -, refused⟩
  · have one_more : opened.table.remembered.length = state.table.remembered.length + 1 := by
      rw [step_remember first, List.length_cons]
    refine carry_out_fails program ?_ ?_ fault refused
    · intro start begins
      exact Nat.le_trans (balanced_closes balanced start begins) (by omega)
    · intro start begins
      have nested := open_le_nesting begins
      omega
  · exact step_fails .restoreState (by rintro ⟨⟩) fault refused

/-- Let the brackets of a program be balanced, and let there be room for the rows that it remembers at a
time and for one more. Put into brackets and carried out from any state, it is not refused for
remembering too many rows; and if nothing else is refused, the state is the one before, but for the
location and the warnings. -/
theorem brackets_leave_nothing (target : Target) (entry : CfiEntry) (program : List Instruction)
    (state : RunState) (balanced : Balanced program)
    (room : state.table.remembered.length + 1 + nestingDepth program ≤ maxRemembered) :
    let result := carryOut target entry (.rememberState :: program ++ [.restoreState]) state
    (∀ after, result = .ok after →
      after = { state with location := after.location, warnings := after.warnings }) ∧
      ∀ limit, result ≠ .error (.tooManyRememberedRows limit) :=
  ⟨fun _ carried => bracket_restores balanced carried,
    fun limit refused => bracket_fails balanced room _ refused limit rfl⟩

/-- A state in which a row of the function is remembered already, and a program with a bracket of its own
that gives a far column a rule, replaces the rule of the frame address and restores a register. -/
def insideBracket : RunState :=
  let seed := growingFrame.seed smallTarget fun _ => .unspecified
  { seed with table := { seed.table with remembered := [seed.table.row] } }

def growingProgram : List Instruction := [
  .sameValue 3, .advanceLoc 4, .rememberState, .defCfaExpression ⟨[0x77, 8]⟩, .offset 140 2, .restoreState,
  .defCfa 6 16, .restore 16, .undefined 100]

theorem brackets_leave_nothing_grown :
    Balanced growingProgram ∧
      insideBracket.table.remembered.length + 1 + nestingDepth growingProgram ≤ maxRemembered ∧
      ∃ after, carryOut smallTarget growingFrame (.rememberState :: growingProgram ++ [.restoreState])
          insideBracket = .ok after ∧
        after = { insideBracket with location := 0x1004 } := by
  have balanced : Balanced growingProgram := by decide +kernel
  have room : insideBracket.table.remembered.length + 1 + nestingDepth growingProgram ≤ maxRemembered := by
    decide +kernel
  obtain ⟨kept, -⟩ := brackets_leave_nothing smallTarget growingFrame growingProgram insideBracket balanced room
  have ran : ((carryOut smallTarget growingFrame (.rememberState :: growingProgram ++ [.restoreState])
      insideBracket).toOption.map fun after => (after.location, after.warnings)) = some (0x1004, []) := by
    decide +kernel
  obtain ⟨after, carried, seen⟩ := Option.map_eq_some_iff.mp ran
  have carried := ok_of_to_option carried
  refine ⟨balanced, room, after, carried, ?_⟩
  rw [kept after carried, (Prod.mk.inj seen).1, (Prod.mk.inj seen).2]
  rfl

end Bracketed

end CallFrame
