import CallFrame.Interpreter
import CallFrame.Proofs.Locality
import CallFrame.Proofs.TwoReadings
import CallFrame.Proofs.UnwindTable

/-!
Rows of programs that break off. Where a program stops with a fault, the bytes before its failing
instruction are a program of their own. It is decoded completely, and comes to the same row without any
fault. The failing instruction leaves nothing behind, and the bytes after it are not looked at.
-/

namespace CallFrame

variable {target : Target} {entry : CfiEntry} {pc : UInt64}

/-! Where a run stops. -/
section Stopping

def CfiEntry.firstDecoded (entry : CfiEntry) (program : List UInt8) (offset : Nat) :
    Except Fault Instruction :=
  (readInstruction entry.operandFormat).value ⟨program, offset, entry.endian⟩

def CfiEntry.firstInstruction (entry : CfiEntry) (program : List UInt8) (offset : Nat) : List UInt8 :=
  CallFrame.firstInstruction entry.operandFormat ⟨program, offset, entry.endian⟩

/-- The run of a program from `start` stops with the fault in the state `after`, at the first instruction
of `rest`. What is before it is decoded completely and leads there. The instruction cannot be decoded, or
it is refused in that state; and whatever follows it, unless the program ends inside it, the run is the
same. -/
structure StopsAt (target : Target) (entry : CfiEntry) (pc : UInt64) (offset : Nat)
    (start after : RunState) (fault : Fault) (before rest : List UInt8) : Prop where
  decodes : ∀ next ∈ entry.decode before offset, ∃ instruction, next = .ok instruction
  joins : entry.decode (before ++ rest) offset =
    entry.decode before offset ++ entry.decode rest (offset + before.length)
  reaches : run target entry pc (entry.decode before offset) start = (after, none)
  fails : ∃ next behind, entry.decode rest (offset + before.length) = next :: behind ∧
    (next >>= fun instruction => step target entry instruction after) = .error fault
  blind : ∀ tail, (fault.isTruncation → tail = []) →
    run target entry pc (entry.decode
      (before ++ entry.firstInstruction rest (offset + before.length) ++ tail) offset) start =
        (after, some fault)

theorem run_cons {next : Except Fault Instruction} {rest : List (Except Fault Instruction)}
    {state : RunState} (reached : ¬ pc < state.location) :
    run target entry pc (next :: rest) state =
      match next >>= fun instruction => step target entry instruction state with
      | .ok after => run target entry pc rest after
      | .error fault => (state, some fault) := by
  rw [run]
  exact if_neg reached

/-- Two programs run alike if what is decoded of them is, and each instruction does in the one run what its
counterpart does in the other. -/
theorem run_alike {target' : Target} {entry' : CfiEntry} (pc : UInt64)
    {program program' : List (Except Fault Instruction)}
    (alike : List.Forall₂
      (Alike fun i i' => ∀ state, step target entry i state = step target' entry' i' state) program program')
    (state : RunState) : run target entry pc program state = run target' entry' pc program' state := by
  induction alike generalizing state with
  | nil => rfl
  | @cons next next' rest rest' first _ ih =>
      have stepped : (next >>= fun i => step target entry i state) =
          next' >>= fun i => step target' entry' i state := by
        cases first with
        | error fault => rfl
        | ok same => exact same state
      unfold run
      rw [stepped]
      simp only [ih]

section Carried

variable {instruction : Instruction} {rest : List (Except Fault Instruction)} {state after : RunState}
  (reached : ¬ pc < state.location)

include reached

theorem run_carried (carried : step target entry instruction state = .ok after) :
    run target entry pc (.ok instruction :: rest) state = run target entry pc rest after := by
  have outcome : (Except.ok instruction >>= fun instruction => step target entry instruction state) =
      .ok after := carried
  rw [run_cons reached, outcome]

theorem run_refused {fault : Fault} (refused : step target entry instruction state = .error fault) :
    run target entry pc (.ok instruction :: rest) state = (state, some fault) := by
  have outcome : (Except.ok instruction >>= fun instruction => step target entry instruction state) =
      .error fault := refused
  rw [run_cons reached, outcome]

end Carried

theorem decode_first (program : List UInt8) (offset : Nat) (some : program ≠ []) :
    ∃ behind, entry.decode program offset = entry.firstDecoded program offset :: behind := by
  rw [CfiEntry.decode, CfiEntry.firstDecoded, ReadM.value,
    decode_run entry.operandFormat ⟨program, offset, entry.endian⟩ some]
  rcases (readInstruction entry.operandFormat).run ⟨program, offset, entry.endian⟩ with
    ⟨fault | instruction, rest⟩
  · exact ⟨_, rfl⟩
  · exact ⟨_, rfl⟩

variable {program : List UInt8} {offset : Nat} {start after : RunState} {fault : Fault}

/-- What is decoded first depends on the bytes it takes alone, unless they run out. -/
theorem first_blind (some : program ≠ []) (tail : List UInt8)
    (cut : RanOut (entry.firstDecoded program offset) → tail = []) :
    entry.firstInstruction program offset ++ tail ≠ [] ∧
      entry.firstDecoded (entry.firstInstruction program offset ++ tail) offset =
        entry.firstDecoded program offset := by
  cases out : RanOut (entry.firstDecoded program offset) with
  | true =>
      have whole : entry.firstInstruction program offset = program := if_pos out
      rw [cut out, List.append_nil, whole]
      exact ⟨some, rfl⟩
  | false =>
      obtain ⟨taken, rest, something, -, -, decided⟩ :=
        first_decides entry.operandFormat ⟨program, offset, entry.endian⟩ some
      obtain ⟨first, decided⟩ := decided out
      rw [CfiEntry.firstInstruction, first]
      refine ⟨List.append_ne_nil_of_left_ne_nil something tail, ?_⟩
      exact congrArg (·.1) (decided tail)

theorem ran_out_fault {next : Except Fault α} {follow : α → Except Fault β} (out : RanOut next)
    (failed : next >>= follow = .error fault) : fault.isTruncation := by
  cases next with
  | ok value => cases out
  | error other =>
      cases failed
      exact out

/-- The first instruction of the program fails. -/
theorem stops_here (some : program ≠ []) (reached : ¬ pc < start.location)
    (failed : (entry.firstDecoded program offset >>= fun instruction =>
      step target entry instruction start) = .error fault) :
    StopsAt target entry pc offset start start fault [] program := by
  obtain ⟨behind, decoded⟩ := decode_first program offset some
  refine ⟨by rintro next ⟨⟩, rfl, rfl, ⟨_, behind, decoded, failed⟩, fun tail cut => ?_⟩
  rw [List.nil_append, List.length_nil, Nat.add_zero]
  obtain ⟨some', same⟩ := first_blind some tail fun out => cut (ran_out_fault out failed)
  obtain ⟨behind', decoded'⟩ := decode_first _ offset some'
  rw [decoded', run_cons reached, same, failed]

/-- The first instruction is carried out, and the program stops behind it. -/
theorem stops_behind {taken before rest : List UInt8} {instruction : Instruction} {middle : RunState}
    (reached : ¬ pc < start.location)
    (decoded : ∀ other, entry.decode (taken ++ other) offset =
      .ok instruction :: entry.decode other (offset + taken.length))
    (carried : step target entry instruction start = .ok middle)
    (stops : StopsAt target entry pc (offset + taken.length) middle after fault before rest) :
    StopsAt target entry pc offset start after fault (taken ++ before) rest := by
  have place : offset + (taken ++ before).length = offset + taken.length + before.length := by
    rw [List.length_append, Nat.add_assoc]
  have first (other : List UInt8) : run target entry pc (entry.decode (taken ++ other) offset) start =
      run target entry pc (entry.decode other (offset + taken.length)) middle := by
    rw [decoded, run_carried reached carried]
  refine ⟨?_, ?_, ?_, ?_, fun tail cut => ?_⟩
  · intro next member
    rw [decoded] at member
    rcases List.mem_cons.mp member with rfl | later
    · exact ⟨instruction, rfl⟩
    · exact stops.decodes next later
  · rw [List.append_assoc, decoded, decoded, stops.joins, place]
    rfl
  · rw [first]
    exact stops.reaches
  · rw [place]
    exact stops.fails
  · rw [place, List.append_assoc, List.append_assoc, first, ← List.append_assoc]
    exact stops.blind tail cut

theorem run_stops (program : List UInt8) (offset : Nat) (start after : RunState) (fault : Fault)
    (stopped : run target entry pc (entry.decode program offset) start = (after, some fault)) :
    ∃ before rest, program = before ++ rest ∧
      StopsAt target entry pc offset start after fault before rest := by
  induction length : program.length using Nat.strong_induction_on generalizing program offset start with
  | _ size ih =>
  by_cases some : program = []
  · subst some
    cases stopped
  by_cases past : pc < start.location
  · rw [run_past pc _ start past] at stopped
    cases stopped
  have here := @stops_here target entry pc program offset start fault some past
  obtain ⟨behind, decoded⟩ := @decode_first entry program offset some
  rw [decoded, run_cons past] at stopped
  cases outcome : entry.firstDecoded program offset >>= fun instruction =>
      step target entry instruction start with
  | error refusal =>
      rw [outcome] at stopped
      cases stopped
      exact ⟨[], program, rfl, here outcome⟩
  | ok middle =>
      obtain ⟨instruction, read, carried⟩ := bind_ok outcome
      obtain ⟨taken, rest, something, rfl, -, again⟩ := decode_taken entry.operandFormat some read
      obtain ⟨-, rfl⟩ := List.cons.inj ((again rest).symm.trans decoded)
      rw [outcome] at stopped
      have shorter : rest.length < size := by
        have moved := List.length_pos_iff.mpr something
        rw [← length, List.length_append]
        omega
      obtain ⟨before, rest', split, stops⟩ := ih _ shorter rest _ middle stopped rfl
      refine ⟨taken ++ before, rest', ?_, stops_behind past again carried stops⟩
      rw [List.append_assoc, ← split]

end Stopping

/-! An entry with other programs. -/
section Replacing

inductive Part where
  | shared
  | own
deriving DecidableEq

def Part.program (entry : CfiEntry) : Part → List UInt8
  | .shared => entry.cie.program
  | .own => entry.fde.program

def Part.offset (entry : CfiEntry) : Part → Nat
  | .shared => entry.cie.programOffset
  | .own => entry.fde.programOffset

def Part.start (target : Target) (entry : CfiEntry) (initReg : Register → RegisterRule) (pc : UInt64) :
    Part → RunState
  | .shared => entry.seed target initReg
  | .own => (run target entry pc entry.initialProgram (entry.seed target initReg)).1.handOver

def stoppedIn (target : Target) (entry : CfiEntry) (initReg : Register → RegisterRule) (pc : UInt64) :
    Part :=
  match (run target entry pc entry.initialProgram (entry.seed target initReg)).2 with
  | some _ => .shared
  | none => .own

/-- The entry with other bytes for one program. Behind the shared one, `behind` stands for the function's
own; behind that there is nothing. -/
def CfiEntry.replace (entry : CfiEntry) (program behind : List UInt8) : Part → CfiEntry
  | .shared => { entry with cie := { entry.cie with program }, fde := { entry.fde with program := behind } }
  | .own => { entry with fde := { entry.fde with program } }

variable {initReg : Register → RegisterRule} {column : Register} {part : Part} (program behind : List UInt8)

theorem step_replace (instruction : Instruction) (state : RunState) :
    step target (entry.replace program behind part) instruction state =
      step target entry instruction state := by
  cases part <;> cases instruction <;> rfl

theorem run_replace (instructions : List (Except Fault Instruction)) (state : RunState) :
    run target (entry.replace program behind part) pc instructions state =
      run target entry pc instructions state := by
  induction instructions generalizing state with
  | nil => rfl
  | cons next rest ih =>
      by_cases past : pc < state.location
      · rw [run_past pc _ state past, run_past pc _ state past]
      rw [run_cons past, run_cons past]
      simp only [step_replace, ih]

theorem decode_replace (bytes : List UInt8) (offset : Nat) :
    (entry.replace program behind part).decode bytes offset = entry.decode bytes offset := by
  cases part <;> rfl

theorem seed_replace : (entry.replace program behind part).seed target initReg = entry.seed target initReg := by
  cases part <;> rfl

def interpreted (entry : CfiEntry) (column : Register) (ran : RunState × Option Fault) :
    UnwindRow × List Warning :=
  ({ row := ran.1.table.row
     returnColumn := column
     functionStart := entry.start
     signalFrame := entry.cie.isSignalFrame
     degraded := ran.2 },
    ran.1.warnings ++ ran.2.toList.map (.programStopped entry.fde.offset))

theorem execute_interpreted (inRange : entry.returnColumn target = .ok column) :
    execute target entry initReg pc =
      interpreted entry column (runEntry target entry pc (entry.seed target initReg)) := by
  unfold execute
  rw [inRange]
  dsimp only
  rcases runEntry target entry pc (entry.seed target initReg) with ⟨state, _ | fault⟩
  · simp [interpreted]
  · rfl

def Part.run (part : Part) (target : Target) (entry : CfiEntry) (initReg : Register → RegisterRule)
    (pc : UInt64) (program : List UInt8) : RunState × Option Fault :=
  CallFrame.run target entry pc (entry.decode program (part.offset entry))
    (part.start target entry initReg pc)

/-- What the run comes to with the program behind. Only the shared program has one. -/
def Part.proceed (part : Part) (target : Target) (entry : CfiEntry) (pc : UInt64) (behind : List UInt8)
    (ran : RunState × Option Fault) : RunState × Option Fault :=
  match part, ran.2 with
  | .shared, none =>
    CallFrame.run target entry pc (entry.decode behind entry.fde.programOffset) ran.1.handOver
  | .shared, some _ | .own, _ => ran

theorem stopped_in (target : Target) (entry : CfiEntry) (initReg : Register → RegisterRule) (pc : UInt64) :
    let shared := run target entry pc entry.initialProgram (entry.seed target initReg)
    (∃ fault, shared.2 = some fault ∧ stoppedIn target entry initReg pc = .shared) ∨
      shared.2 = none ∧ stoppedIn target entry initReg pc = .own := by
  intro shared
  cases ends : shared.2 with
  | some fault =>
      refine .inl ⟨fault, rfl, ?_⟩
      rw [stoppedIn, ends]
  | none =>
      refine .inr ⟨rfl, ?_⟩
      rw [stoppedIn, ends]

theorem run_entry_replace (stopped : stoppedIn target entry initReg pc = part) :
    runEntry target (entry.replace program behind part) pc (entry.seed target initReg) =
      part.proceed target entry pc behind (part.run target entry initReg pc program) := by
  simp only [runEntry, CfiEntry.initialProgram, CfiEntry.program, run_replace, decode_replace]
  cases part with
  | shared =>
      dsimp only [CfiEntry.replace, Part.proceed, Part.run, Part.start, Part.offset]
      rcases run target entry pc _ (entry.seed target initReg) with ⟨after, _ | fault⟩ <;> rfl
  | own =>
      obtain ⟨fault, -, other⟩ | ⟨ends, -⟩ := stopped_in target entry initReg pc
      · rw [stopped] at other
        cases other
      · dsimp only [CfiEntry.replace, Part.proceed, Part.run, Part.start, Part.offset]
        change (run target entry pc (entry.decode _ _) (entry.seed target initReg)).2 = none at ends
        rw [CfiEntry.initialProgram]
        generalize run target entry pc (entry.decode _ _) (entry.seed target initReg) = shared at ends ⊢
        obtain ⟨state, fault⟩ := shared
        cases ends
        rfl

theorem replace_same : entry.replace (part.program entry) entry.fde.program part = entry := by
  cases part <;> rfl

variable (inRange : entry.returnColumn target = .ok column)

include inRange

/-- Interpreting an entry with other bytes in the program that stops it. -/
theorem execute_replace (stopped : stoppedIn target entry initReg pc = part) :
    execute target (entry.replace program behind part) initReg pc = interpreted entry column
      (part.proceed target entry pc behind (part.run target entry initReg pc program)) := by
  have inRange' : (entry.replace program behind part).returnColumn target = .ok column := by
    cases part <;> exact inRange
  rw [execute_interpreted inRange', seed_replace, run_entry_replace program behind stopped]
  cases part <;> rfl

theorem execute_stops (stopped : stoppedIn target entry initReg pc = part) {after : RunState}
    {fault : Fault} (ran : part.run target entry initReg pc program = (after, some fault)) :
    execute target (entry.replace program behind part) initReg pc =
      interpreted entry column (after, some fault) := by
  rw [execute_replace program behind inRange stopped, ran]
  cases part <;> rfl

theorem execute_ends (stopped : stoppedIn target entry initReg pc = part) {after : RunState}
    (ran : part.run target entry initReg pc program = (after, none)) :
    execute target (entry.replace program [] part) initReg pc = interpreted entry column (after, none) := by
  rw [execute_replace program [] inRange stopped, ran]
  cases part <;> rfl

/-- The fault of a degraded row is the one that the run of the program ended with. -/
theorem degraded_run {fault : Fault}
    (degraded : (execute target entry initReg pc).1.degraded = some fault)
    (stopped : stoppedIn target entry initReg pc = part) :
    ∃ after, part.run target entry initReg pc (part.program entry) = (after, some fault) := by
  have ran := execute_replace (part.program entry) entry.fde.program inRange stopped
  rw [replace_same] at ran
  rw [ran] at degraded
  change (part.proceed target entry pc entry.fde.program
    (part.run target entry initReg pc (part.program entry))).2 = some fault at degraded
  rcases whole : part.run target entry initReg pc (part.program entry) with ⟨after, _ | other⟩ <;>
    rw [whole] at degraded
  · cases part with
    | shared =>
        obtain ⟨fault, ends, -⟩ | ⟨-, other⟩ := stopped_in target entry initReg pc
        · change (Part.shared.run target entry initReg pc (Part.shared.program entry)).2 = _ at ends
          rw [whole] at ends
          cases ends
        · rw [stopped] at other
          cases other
    | own => cases degraded
  · refine ⟨after, ?_⟩
    cases part <;> exact congrArg (after, ·) degraded

end Replacing

/-! The prefix that a degraded row is the row of. -/
section Prefix

/-- The program is cut before the instruction that it stops at. With the bytes before that alone, the entry
has the same row without a fault. Unless the program ends inside the instruction, nothing that follows it
counts: neither the rest of the program, nor what runs behind it. -/
structure BrokenAt (target : Target) (entry : CfiEntry) (initReg : Register → RegisterRule) (pc : UInt64)
    (part : Part) (fault : Fault) (before rest : List UInt8) : Prop where
  split : part.program entry = before ++ rest
  stops : ∃ after, StopsAt target entry pc (part.offset entry) (part.start target entry initReg pc) after
    fault before rest
  row : (execute target (entry.replace before [] part) initReg pc).1 =
    { (execute target entry initReg pc).1 with degraded := none }
  blind : ∀ tail behind, (fault.isTruncation → tail = []) →
    execute target (entry.replace
      (before ++ entry.firstInstruction rest (part.offset entry + before.length) ++ tail) behind part)
      initReg pc = execute target entry initReg pc

/-- A row that is degraded is exactly the row of a prefix of the program that stopped, and is not
influenced by any byte behind the instruction that fails. -/
theorem degraded_row_is_prefix (target : Target) (entry : CfiEntry) (initReg : Register → RegisterRule)
    (pc : UInt64) (column : Register) (fault : Fault)
    (inRange : entry.returnColumn target = .ok column)
    (degraded : (execute target entry initReg pc).1.degraded = some fault) :
    ∃ before rest,
      BrokenAt target entry initReg pc (stoppedIn target entry initReg pc) fault before rest := by
  obtain ⟨after, ran⟩ := degraded_run inRange degraded rfl
  obtain ⟨before, rest, split, stops⟩ := run_stops _ _ _ after fault ran
  have whole := execute_stops _ entry.fde.program inRange rfl ran
  rw [replace_same] at whole
  refine ⟨before, rest, split, ⟨after, stops⟩, ?_, fun tail behind cut => ?_⟩
  · rw [execute_ends before inRange rfl stops.reaches, whole]
    rfl
  · rw [whole]
    exact execute_stops _ behind inRange rfl (stops.blind tail cut)

/-- Its program says of register 3 that it is saved in a register that there is no column for. -/
def refusedFrame : CfiEntry :=
  { growingFrame with
    fde := { growingFrame.fde with program := [0x41, 0x0e, 16, 0x83, 2, 0x09, 3, 0x80, 0x80, 1, 0x0e, 24] } }

-- The frame that grows twice is broken off at its last byte, an opcode that is unknown. In the other one the
-- instruction at which it is broken off can be decoded, and cannot be carried out.
theorem growing_frame_is_prefix :
    let rows (entry : CfiEntry) := (execute smallTarget entry (fun _ => .unspecified) 0x1011).1
    (growingFrame.returnColumn smallTarget = .ok ⟨16⟩ ∧
      (rows growingFrame).degraded = some (.unknownOpcode 0x3f 0x3f) ∧
      ∃ before rest, BrokenAt smallTarget growingFrame (fun _ => .unspecified) 0x1011 .own
          (.unknownOpcode 0x3f 0x3f) before rest ∧
        (rows (growingFrame.replace before [] .own)).row.cfa = some (.registerAndOffset ⟨7⟩ 24) ∧
        (rows (growingFrame.replace before [] .own)).row.specified = [(⟨16⟩, .savedAtOffset (-8))]) ∧
    refusedFrame.returnColumn smallTarget = .ok ⟨16⟩ ∧
      (rows refusedFrame).degraded = some (.registerOutOfRange 0x4000) ∧
      .ok (.register 3 0x4000) ∈ refusedFrame.program ∧
      ∃ before rest, BrokenAt smallTarget refusedFrame (fun _ => .unspecified) 0x1011 .own
          (.registerOutOfRange 0x4000) before rest ∧
        (rows (refusedFrame.replace before [] .own)).row.cfa = some (.registerAndOffset ⟨7⟩ 16) ∧
        (rows (refusedFrame.replace before [] .own)).row.specified =
          [(⟨3⟩, .savedAtOffset (-16)), (⟨16⟩, .savedAtOffset (-8))] := by
  intro rows
  have broken {entry : CfiEntry} {fault : Fault} (column : entry.returnColumn smallTarget = .ok ⟨16⟩)
      (degraded : (rows entry).degraded = some fault)
      (own : stoppedIn smallTarget entry (fun _ => .unspecified) 0x1011 = .own) :
      ∃ before rest, BrokenAt smallTarget entry (fun _ => .unspecified) 0x1011 .own fault before rest ∧
        rows (entry.replace before [] .own) = { rows entry with degraded := none } := by
    obtain ⟨before, rest, broken⟩ := degraded_row_is_prefix smallTarget entry (fun _ => .unspecified)
      0x1011 ⟨16⟩ fault column degraded
    rw [own] at broken
    exact ⟨before, rest, broken, broken.row⟩
  constructor
  · have degraded : (rows growingFrame).degraded = some (.unknownOpcode 0x3f 0x3f) := by decide +kernel
    obtain ⟨before, rest, stops, row⟩ := broken rfl degraded (by decide +kernel)
    refine ⟨rfl, degraded, before, rest, stops, ?_, ?_⟩ <;> rw [row] <;> decide +kernel
  · have degraded : (rows refusedFrame).degraded = some (.registerOutOfRange 0x4000) := by decide +kernel
    obtain ⟨before, rest, stops, row⟩ := broken rfl degraded (by decide +kernel)
    refine ⟨rfl, degraded, by decide +kernel, before, rest, stops, ?_, ?_⟩ <;> rw [row] <;> decide +kernel

end Prefix

end CallFrame
