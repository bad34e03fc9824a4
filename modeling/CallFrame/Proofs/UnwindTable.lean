import CallFrame.Interpreter
import Mathlib.Data.List.Chain

/-!
The table that frame programs describe. Interpreting an entry stops where the location has passed the
wanted address and keeps one row. Here both programs run to their end, whatever the address, and all
states they go through are kept. The row that interpreting yields is then the last one of the whole
table that is not past the address.
-/

namespace CallFrame

variable {target : Target} {entry : CfiEntry}

/-! What one instruction does to the location. -/
section Location

def StaysAt (location : UInt64) (result : Except Fault RunState) : Prop :=
  ∀ after, result = .ok after → after.location = location

theorem stays_ok {location : UInt64} {after : RunState} (same : after.location = location) :
    StaysAt location (.ok after) := by
  rintro _ ⟨⟩
  exact same

theorem stays_bind {location : UInt64} {operand : Except Fault α}
    {follow : α → Except Fault RunState} (stays : ∀ value, StaysAt location (follow value)) :
    StaysAt location (operand >>= follow) := by
  cases operand with
  | error fault =>
      intro after carried
      cases carried
  | ok value => exact stays value

theorem set_cfa_register_location (state : RunState) (r : Register) :
    (state.setCfaRegister r).location = state.location := by
  unfold RunState.setCfaRegister
  split <;> rfl

theorem set_cfa_offset_location (state : RunState) (offset : Int64) :
    (state.setCfaOffset offset).location = state.location := by
  unfold RunState.setCfaOffset
  split <;> rfl

theorem fold_keeps (part : RunState → α) (change : RunState → Nat → RunState)
    (keeps : ∀ state i, part (change state i) = part state) (items : List Nat)
    (state : RunState) : part (items.foldl change state) = part state := by
  induction items generalizing state with
  | nil => rfl
  | cons i rest ih => rw [List.foldl_cons, ih, keeps]

theorem save_window_location (state : RunState) (size : UInt8) :
    (state.saveWindow size).location = state.location := by
  simp only [RunState.saveWindow]
  rw [fold_keeps (·.location), fold_keeps (·.location)]
  · intros
    rfl
  · intros
    rfl

theorem step_stays (instruction : Instruction) (state : RunState)
    (noJump : ∀ address, instruction ≠ .setLoc address)
    (noAdvance : ∀ delta, instruction ≠ .advanceLoc delta) :
    StaysAt state.location (step target entry instruction state) := by
  cases instruction with
  | setLoc address => exact absurd rfl (noJump address)
  | advanceLoc delta => exact absurd rfl (noAdvance delta)
  | defCfa | defCfaSf =>
      exact stays_bind fun _ => stays_bind fun _ => stays_ok rfl
  | defCfaRegister =>
      exact stays_bind fun _ => stays_ok (set_cfa_register_location _ _)
  | defCfaOffset | defCfaOffsetSf =>
      exact stays_bind fun _ => stays_ok (set_cfa_offset_location _ _)
  | undefined | sameValue | expression | valExpression | restore =>
      exact stays_bind fun _ => stays_ok rfl
  | offset | offsetExtendedSf | negativeOffsetExtended | valOffset | valOffsetSf | register =>
      exact stays_bind fun _ => stays_bind fun _ => stays_ok rfl
  | defCfaExpression | skipped | nop => exact stays_ok rfl
  | rememberState =>
      simp only [step]
      split
      · exact stays_ok rfl
      · rintro _ ⟨⟩
  | restoreState =>
      simp only [step]
      split <;> exact stays_ok rfl
  | windowSave =>
      simp only [step]
      apply stays_ok
      split
      · exact save_window_location _ _
      · rfl

theorem advance_forward (state : RunState) (delta factor : UInt64) :
    state.location ≤ (state.advance delta factor).location := by
  have bound := state.location.toNat_lt
  simp only [RunState.advance, UInt64.le_iff_toNat_le, Nat.toUInt64, UInt64.toNat_ofNat']
  omega

end Location

/-! Runs to the end of the programs. -/
section FullRun

structure Move where
  before : RunState
  instruction : Instruction
  after : RunState

def Move.backward (move : Move) : Bool :=
  match move.instruction with
  | .setLoc _ => move.after.location < move.before.location
  | _ => false

structure FullRun where
  moves : List Move
  fault : Option Fault

namespace FullRun

/-- The states of a run from `start`: that one, and the one after each instruction. -/
def states (run : FullRun) (start : RunState) : List RunState :=
  start :: run.moves.map (·.after)

def last (run : FullRun) (start : RunState) : RunState :=
  (run.moves.map (·.after)).getLastD start

end FullRun

def runFully (target : Target) (entry : CfiEntry) :
    List (Except Fault Instruction) → RunState → FullRun
  | [], _ => ⟨[], none⟩
  | .error fault :: _, _ => ⟨[], some fault⟩
  | .ok instruction :: rest, state =>
    match step target entry instruction state with
    | .error fault => ⟨[], some fault⟩
    | .ok after =>
      let tail := runFully target entry rest after
      { tail with moves := ⟨state, instruction, after⟩ :: tail.moves }

def runBothFully (target : Target) (entry : CfiEntry) (start : RunState) : FullRun :=
  let shared := runFully target entry entry.initialProgram start
  match shared.fault with
  | some _ => shared
  | none =>
    let own := runFully target entry entry.program (shared.last start).handOver
    { own with moves := shared.moves ++ own.moves }

theorem states_cons (move : Move) (tail : FullRun) (start : RunState) :
    FullRun.states { tail with moves := move :: tail.moves } start =
      start :: tail.states move.after := rfl

theorem last_cons (move : Move) (tail : FullRun) (start : RunState) :
    FullRun.last { tail with moves := move :: tail.moves } start = tail.last move.after :=
  List.getLastD_cons

-- A run with an address stops in the first state past the address, and else does the whole run.
theorem run_eq_first_past (pc : UInt64) (program : List (Except Fault Instruction))
    (state : RunState) :
    run target entry pc program state =
      let full := runFully target entry program state
      match (full.states state).find? (pc < ·.location) with
      | some past => (past, none)
      | none => (full.last state, full.fault) := by
  induction program generalizing state with
  | nil =>
      by_cases past : pc < state.location <;>
        simp [run, runFully, FullRun.states, FullRun.last, past]
  | cons next rest ih =>
      by_cases past : pc < state.location
      · simp [run, FullRun.states, past]
      cases next with
      | error fault =>
          simp [run, runFully, FullRun.states, FullRun.last, past, bind, Except.bind]
      | ok instruction =>
          cases carried : step target entry instruction state with
          | error fault =>
              simp [run, runFully, FullRun.states, FullRun.last, past, bind, Except.bind, carried]
          | ok after =>
              simp only [run, past, ↓reduceIte, bind, Except.bind, carried, ih after]
              simp only [runFully, carried, states_cons, last_cons, List.find?_cons, past,
                decide_false]

theorem run_past (pc : UInt64) (program : List (Except Fault Instruction)) (state : RunState)
    (past : pc < state.location) : run target entry pc program state = (state, none) := by
  cases program <;> simp [run, past]

theorem last_mem (full : FullRun) (start : RunState) : full.last start ∈ full.states start :=
  List.getLastD_mem_cons

@[simp]
theorem hand_over_location (state : RunState) : state.handOver.location = state.location := rfl

@[simp]
theorem hand_over_table (state : RunState) : state.handOver.table = state.table := rfl

theorem states_append (shared own : FullRun) (start : RunState) :
    FullRun.states { own with moves := shared.moves ++ own.moves } start =
      shared.states start ++ own.moves.map (·.after) := by
  simp [FullRun.states]

theorem last_append (shared own : FullRun) (start : RunState) :
    FullRun.last { own with moves := shared.moves ++ own.moves } start =
      own.last (shared.last start) := by
  simp only [FullRun.last, List.map_append, List.getLastD_eq_getLast?, List.getLast?_append]
  cases (own.moves.map (·.after)).getLast? <;> rfl

-- Handing over moves nothing and changes no row. So the two programs of an entry stop like one.
theorem run_entry_row (pc : UInt64) (start : RunState) :
    ((runEntry target entry pc start).1.table.row, (runEntry target entry pc start).2) =
      let full := runBothFully target entry start
      match (full.states start).find? (pc < ·.location) with
      | some past => (past.table.row, none)
      | none => ((full.last start).table.row, full.fault) := by
  have stop := @run_eq_first_past target entry pc entry.initialProgram start
  unfold runEntry runBothFully
  generalize runFully target entry entry.initialProgram start = shared at stop ⊢
  cases first : (shared.states start).find? (pc < ·.location) with
  | some past =>
      have isPast : pc < past.handOver.location := by simpa using List.find?_some first
      simp only [first] at stop
      simp only [stop, run_past pc entry.program past.handOver isPast, hand_over_table]
      cases stopped : shared.fault with
      | some fault => simp only [first]
      | none =>
          simp only [states_append, List.find?_append, first, Option.some_or]
  | none =>
      simp only [first] at stop
      simp only [stop]
      cases stopped : shared.fault with
      | some fault => simp only [stopped, first]
      | none =>
          have notPast : ¬ pc < (shared.last start).handOver.location := by
            simpa using List.find?_eq_none.mp first _ (last_mem shared start)
          simp only [run_eq_first_past]
          generalize runFully target entry entry.program _ = own
          simp only [states_append, last_append, List.find?_append, first, Option.none_or]
          simp only [FullRun.states, List.find?_cons, notPast, decide_false]
          cases (own.moves.map (·.after)).find? (pc < ·.location) with
          | some past => rfl
          | none =>
              -- with no move of its own, the last state is the one handed over
              simp only [FullRun.last, List.getLastD_eq_getLast?]
              cases (own.moves.map (·.after)).getLast? <;> rfl

end FullRun

/-! The whole table. Unless a jump goes backward, locations only grow along a run, and a row changes
only where the location stays. So the first state past an address has the row of the last one that is
not. -/
section Table

/-- What may follow a state: a later location with the same table, or the same location. -/
def Follows (before after : RunState) : Prop :=
  before.location ≤ after.location ∧
    (after.location = before.location ∨ after.table = before.table)

theorem step_follows (move : Move)
    (carried : step target entry move.instruction move.before = .ok move.after)
    (forward : move.backward = false) : Follows move.before move.after := by
  rcases move with ⟨before, instruction, after⟩
  simp only at carried ⊢
  by_cases jump : ∃ address, instruction = .setLoc address
  · obtain ⟨address, rfl⟩ := jump
    cases carried
    refine ⟨by simpa [Move.backward] using forward, .inr ?_⟩
    simp only [RunState.moveTo]
    split <;> rfl
  by_cases advance : ∃ delta, instruction = .advanceLoc delta
  · obtain ⟨delta, rfl⟩ := advance
    cases carried
    exact ⟨advance_forward _ _ _, .inr rfl⟩
  · have same := step_stays instruction before (fun address h => jump ⟨address, h⟩)
      (fun delta h => advance ⟨delta, h⟩) after carried
    exact ⟨by simp [same], .inl same⟩

theorem run_fully_chain (program : List (Except Fault Instruction)) (start : RunState)
    (forward : ∀ move ∈ (runFully target entry program start).moves, move.backward = false) :
    ((runFully target entry program start).states start).IsChain Follows := by
  induction program generalizing start with
  | nil => exact List.isChain_singleton _
  | cons next rest ih =>
      cases next with
      | error fault => exact List.isChain_singleton _
      | ok instruction =>
          cases carried : step target entry instruction start with
          | error fault =>
              simp only [runFully, carried]
              exact List.isChain_singleton _
          | ok after =>
              simp only [runFully, carried, List.mem_cons, forall_eq_or_imp] at forward ⊢
              rw [states_cons]
              have first := step_follows ⟨start, instruction, after⟩ carried forward.1
              exact List.isChain_cons_cons.mpr ⟨first, ih after forward.2⟩

theorem run_both_fully_chain (start : RunState)
    (forward : ∀ move ∈ (runBothFully target entry start).moves, move.backward = false) :
    ((runBothFully target entry start).states start).IsChain Follows := by
  unfold runBothFully at forward ⊢
  cases stopped : (runFully target entry entry.initialProgram start).fault with
  | some fault =>
      simp only [stopped] at forward ⊢
      exact run_fully_chain _ _ forward
  | none =>
      simp only [stopped, List.mem_append, or_imp, forall_and] at forward ⊢
      have shared := run_fully_chain _ _ forward.1
      have own := run_fully_chain _ _ forward.2
      rw [states_append]
      refine List.isChain_append.mpr ⟨shared, own.tail, ?_⟩
      intro before isLast after isFirst
      have same : (runFully target entry entry.initialProgram start).last start = before := by
        simpa [FullRun.states, FullRun.last, List.getLast?_cons] using isLast
      -- the state handed over has the location and the table of the last one
      rw [← same]
      exact (List.isChain_cons.mp own).1 after isFirst

theorem chain_grows (start : RunState) (rest : List RunState)
    (chain : (start :: rest).IsChain Follows) (later : RunState) (member : later ∈ rest) :
    start.location ≤ later.location := by
  induction rest generalizing start with
  | nil => cases member
  | cons next rest ih =>
      obtain ⟨first, tail⟩ := List.isChain_cons_cons.mp chain
      rcases List.mem_cons.mp member with rfl | behind
      · exact first.1
      · exact UInt64.le_trans first.1 (ih next tail behind)

theorem last_not_past (pc : UInt64) (start : RunState) (rest : List RunState)
    (chain : (start :: rest).IsChain Follows) (reached : start.location ≤ pc) :
    ∃ state, ((start :: rest).filter (·.location ≤ pc)).getLast? = some state ∧
      state.table.row = match (start :: rest).find? (pc < ·.location) with
        | some past => past.table.row
        | none => (rest.getLastD start).table.row := by
  have notPast : ¬ pc < start.location := UInt64.not_lt.mpr reached
  induction rest generalizing start with
  | nil => exact ⟨start, by simp [reached], by simp [notPast]⟩
  | cons next rest ih =>
      obtain ⟨first, tail⟩ := List.isChain_cons_cons.mp chain
      by_cases past : pc < next.location
      · -- from here on all states are past the address, and this one has the row of `start`
        have none_left : (next :: rest).filter (·.location ≤ pc) = [] := by
          refine List.filter_eq_nil_iff.mpr fun state member => ?_
          have grown : next.location ≤ state.location := by
            rcases List.mem_cons.mp member with rfl | behind
            · exact UInt64.le_refl _
            · exact chain_grows next rest tail state behind
          simpa using UInt64.lt_of_lt_of_le past grown
        have moved : next.location ≠ start.location := by
          intro same
          exact notPast (same ▸ past)
        have kept : next.table = start.table := first.2.resolve_left moved
        refine ⟨start, by simp [reached, none_left], ?_⟩
        simp [notPast, past, kept]
      · obtain ⟨state, isLast, row⟩ := ih next tail (UInt64.not_lt.mp past) past
        refine ⟨state, ?_, ?_⟩
        · rw [List.filter_cons_of_pos (by simpa using reached), List.getLast?_cons, isLast]
          rfl
        · have skipped : (start :: next :: rest).find? (pc < ·.location) =
              (next :: rest).find? (pc < ·.location) :=
            List.find?_cons_of_neg (by simpa using notPast)
          rw [row, skipped, List.getLastD_cons]

/-- The table that an entry describes: the states it goes through before any program and after each
instruction, and the fault that ends it early. -/
def fullTable (target : Target) (entry : CfiEntry) (initReg : Register → RegisterRule) :
    FullRun :=
  runBothFully target entry (entry.seed target initReg)

/-- Interpreting an entry for an address yields the row of the last state that is not past it. The row
is marked as degraded just if the table ended in a fault before it got past the address. -/
theorem execute_eq_table_row (target : Target) (entry : CfiEntry)
    (initReg : Register → RegisterRule) (pc : UInt64) (column : Register)
    (inRange : entry.returnColumn target = .ok column)
    (forward : ∀ move ∈ (fullTable target entry initReg).moves, move.backward = false)
    (reached : entry.start ≤ pc) :
    let states := (fullTable target entry initReg).states (entry.seed target initReg)
    let result := (execute target entry initReg pc).1
    (∃ state, (states.filter (·.location ≤ pc)).getLast? = some state ∧
      result.row = state.table.row) ∧
    result.degraded =
      if ∃ state ∈ states, pc < state.location then none
      else (fullTable target entry initReg).fault := by
  intro states result
  have chain := run_both_fully_chain (entry.seed target initReg) forward
  obtain ⟨state, isLast, row⟩ := last_not_past pc _ _ chain reached
  have outcome : (result.row, result.degraded) =
      ((runEntry target entry pc (entry.seed target initReg)).1.table.row,
        (runEntry target entry pc (entry.seed target initReg)).2) := by
    simp only [result, execute, inRange]
    rcases runEntry target entry pc (entry.seed target initReg) with ⟨after, fault⟩
    cases fault <;> rfl
  rw [run_entry_row] at outcome
  change state.table.row = match states.find? (pc < ·.location) with | some _ => _ | none => _ at row
  change _ = match states.find? (pc < ·.location) with | some _ => _ | none => _ at outcome
  cases found : states.find? (pc < ·.location) with
  | some past =>
      simp only [found, Prod.mk.injEq] at row outcome
      have isPast : ∃ state ∈ states, pc < state.location :=
        ⟨past, List.mem_of_find?_eq_some found, by simpa using List.find?_some found⟩
      exact ⟨⟨state, isLast, outcome.1.trans row.symm⟩, by rw [outcome.2, if_pos isPast]⟩
  | none =>
      simp only [found, Prod.mk.injEq] at row outcome
      have nonePast : ¬ ∃ state ∈ states, pc < state.location := by
        simpa using List.find?_eq_none.mp found
      exact ⟨⟨state, isLast, outcome.1.trans row.symm⟩, by rw [outcome.2, if_neg nonePast]; rfl⟩

/-- A target with seventeen registers, and a function of it that grows its frame twice, the second
time behind a jump of the location, and ends in an opcode that is unknown. -/
def smallTarget : Target where
  name := "small"
  addressSize := 8
  endian := .little
  numRegs := 17
  pc := ⟨16⟩
  sp := ⟨7⟩

def growingFrame : CfiEntry where
  cie := {
    offset := 0, version := 1, augmentationText := "", augmentation := none, addressSize := 8
    codeAlignment := 1, dataAlignment := -8, returnColumn := 16
    program := [0x0c, 7, 8, 0x90, 1], programOffset := 0x10 }
  fde := {
    offset := 0x18, cieOffset := 0, start := 0x1000, length := 0x40, lsda := none
    program := [0x41, 0x0e, 16, 1, 0x10, 0x10, 0, 0, 0, 0, 0, 0, 0x0e, 24, 0x41, 0x3f]
    programOffset := 0x30 }
  kind := .debugFrame
  bias := 0
  endian := .little
  bases := { sectionAddress := 0 }

theorem execute_growing_frame :
    growingFrame.returnColumn smallTarget = .ok ⟨16⟩ ∧
      (fullTable smallTarget growingFrame fun _ => .unspecified).moves.all (!·.backward) ∧
      growingFrame.start ≤ 0x1010 ∧
      (execute smallTarget growingFrame (fun _ => .unspecified) 0x1010).1.row.cfa =
        some (.registerAndOffset ⟨7⟩ 24) ∧
      (execute smallTarget growingFrame (fun _ => .unspecified) 0x1010).1.degraded = none ∧
      (execute smallTarget growingFrame (fun _ => .unspecified) 0x1011).1.degraded =
        some (.unknownOpcode 0x3f 0x3f) := by
  have column : growingFrame.returnColumn smallTarget = .ok ⟨16⟩ := rfl
  have forward : (fullTable smallTarget growingFrame fun _ => .unspecified).moves.all
      (!·.backward) := by decide +kernel
  obtain ⟨⟨state, isLast, row⟩, degraded⟩ := execute_eq_table_row smallTarget growingFrame
    (fun _ => .unspecified) 0x1010 ⟨16⟩ column (by simpa using forward) (by decide)
  obtain ⟨-, later⟩ := execute_eq_table_row smallTarget growingFrame
    (fun _ => .unspecified) 0x1011 ⟨16⟩ column (by simpa using forward) (by decide)
  have cfa : ((((fullTable smallTarget growingFrame fun _ => .unspecified).states
      (growingFrame.seed smallTarget fun _ => .unspecified)).filter
        (·.location ≤ 0x1010)).getLast?.map (·.table.row.cfa)) =
      some (some (.registerAndOffset ⟨7⟩ 24)) := by decide +kernel
  rw [isLast] at cfa
  refine ⟨column, forward, by decide, ?_, ?_, ?_⟩
  · rw [row]
    simpa using cfa
  · rw [degraded, if_pos (by decide +kernel)]
  · rw [later, if_neg (by decide +kernel)]
    decide +kernel

end Table

end CallFrame
