import CallFrame.CfiEntry
import CallFrame.Row
import CallFrame.Target
import CallFrame.Warning

/-!
Interpreting frame programs. Both programs of an entry run over one state: a location that only
moves by instructions, and the row in effect there. What is wanted is the row in effect at a given
address, so a run ends where the location has passed it. A program that cannot be continued keeps
the row it had built, together with the fault.
-/

namespace CallFrame

structure RunState where
  location : UInt64
  table : RuleTable
  /-- What restoring a register goes back to: the row before the entry's own program. -/
  initial : Row
  /-- Oldest first. -/
  warnings : List Warning := []

namespace RunState

def warn (state : RunState) (warning : Warning) : RunState :=
  { state with warnings := state.warnings ++ [warning] }

def setRule (state : RunState) (r : Register) (rule : RegisterRule) : RunState :=
  { state with table := state.table.setRule r rule }

def setCfa (state : RunState) (cfa : CfaRule) : RunState :=
  { state with table := state.table.setCfa cfa }

/-- Replaces the register of the frame address rule and keeps its offset. Without a register rule
there is no offset to keep, and a new rule starts at zero. -/
def setCfaRegister (state : RunState) (r : Register) : RunState :=
  match state.table.row.cfa with
  | some (.registerAndOffset _ offset) => state.setCfa (.registerAndOffset r offset)
  | _ => (state.warn .cfaRegisterAlone).setCfa (.registerAndOffset r 0)

def setCfaOffset (state : RunState) (offset : Int64) : RunState :=
  match state.table.row.cfa with
  | some (.registerAndOffset r _) => state.setCfa (.registerAndOffset r offset)
  | _ => state.warn .cfaOffsetAlone

def moveTo (state : RunState) (location : UInt64) : RunState :=
  let state :=
    if location < state.location then state.warn (.movedBackwards state.location location)
    else state
  { state with location }

/-- Moves forward. The location stays at the last address rather than wrapping. -/
def advance (state : RunState) (delta factor : UInt64) : RunState :=
  let next := state.location.toNat + delta.toNat * factor.toNat
  { state with location := (min next 0xffffffffffffffff).toUInt64 }

/-- The state in which an entry's own program starts: restoring goes back to the row that the shared
program has built. -/
def handOver (state : RunState) : RunState := { state with initial := state.table.row }

/-- Saves a register window: the caller's eight outgoing registers are this frame's incoming ones,
and its sixteen local and incoming registers were stored at the frame address. -/
def saveWindow (state : RunState) (size : UInt8) : RunState :=
  let state := (List.range 8).foldl (fun (state : RunState) i =>
    state.setRule ⟨(8 + i).toUInt16⟩ (.savedInRegister ⟨(24 + i).toUInt16⟩)) state
  (List.range 16).foldl (fun (state : RunState) i =>
    state.setRule ⟨(16 + i).toUInt16⟩ (.savedAtOffset (Int64.ofNat (i * size.toNat)))) state

end RunState

def exactOffset (refusal : Fault) (offset : Int) : Except Fault Int64 :=
  if -0x8000000000000000 ≤ offset ∧ offset < 0x8000000000000000 then .ok (Int64.ofInt offset)
  else .error refusal

def signedOffset (cie : Cie) (factored : Int64) : Except Fault Int64 :=
  exactOffset (.factoredOffsetTooLarge factored.toInt) (factored.toInt * cie.dataAlignment.toInt)

/-- An offset in units of the data alignment. The stored number itself has to fit, too. -/
def unsignedOffset (cie : Cie) (factored : UInt64) : Except Fault Int64 := do
  let refusal := .factoredOffsetTooLarge factored.toNat
  let factored ← exactOffset refusal factored.toNat
  exactOffset refusal (factored.toInt * cie.dataAlignment.toInt)

def negatedOffset (cie : Cie) (factored : UInt64) : Except Fault Int64 := do
  let offset ← unsignedOffset cie factored
  exactOffset (.factoredOffsetTooLarge factored.toNat) (-offset.toInt)

def cfaOffset (offset : UInt64) : Except Fault Int64 :=
  exactOffset (.cfaOffsetTooLarge offset) offset.toNat

def step (target : Target) (entry : CfiEntry) (instruction : Instruction) (state : RunState) :
    Except Fault RunState :=
  let column := target.column entry.kind
  match instruction with
  | .setLoc address => return state.moveTo (address + entry.bias)
  | .advanceLoc delta => return state.advance delta entry.cie.codeAlignment
  | .defCfa register offset =>
    return state.setCfa (.registerAndOffset (← column register) (← cfaOffset offset))
  | .defCfaSf register factored =>
    return state.setCfa (.registerAndOffset (← column register) (← signedOffset entry.cie factored))
  | .defCfaRegister register => return state.setCfaRegister (← column register)
  | .defCfaOffset offset => return state.setCfaOffset (← cfaOffset offset)
  | .defCfaOffsetSf factored => return state.setCfaOffset (← signedOffset entry.cie factored)
  | .defCfaExpression expression => return state.setCfa (.expression expression)
  | .undefined register => return state.setRule (← column register) .undefined
  | .sameValue register => return state.setRule (← column register) .sameValue
  | .offset register factored => do
    let offset ← unsignedOffset entry.cie factored
    return state.setRule (← column register) (.savedAtOffset offset)
  | .offsetExtendedSf register factored => do
    let offset ← signedOffset entry.cie factored
    return state.setRule (← column register) (.savedAtOffset offset)
  | .negativeOffsetExtended register factored => do
    let offset ← negatedOffset entry.cie factored
    return state.setRule (← column register) (.savedAtOffset offset)
  | .valOffset register factored => do
    let offset ← unsignedOffset entry.cie factored
    return state.setRule (← column register) (.savedValueAtOffset offset)
  | .valOffsetSf register factored => do
    let offset ← signedOffset entry.cie factored
    return state.setRule (← column register) (.savedValueAtOffset offset)
  | .register register source => do
    let source ← column source
    return state.setRule (← column register) (.savedInRegister source)
  | .expression register expression =>
    return state.setRule (← column register) (.savedByExpression expression)
  | .valExpression register expression =>
    return state.setRule (← column register) (.savedValueByExpression expression)
  | .restore register => do
    let register ← column register
    return state.setRule register (state.initial.rule register)
  | .rememberState =>
    match state.table.remember with
    | some table => .ok { state with table }
    | none => .error (.tooManyRememberedRows maxRemembered)
  | .restoreState =>
    match state.table.restore with
    | some table => .ok { state with table }
    | none => .ok (state.warn .nothingRemembered)
  | .windowSave =>
    .ok (if target.registerWindows then state.saveWindow target.addressSize else state)
  | .skipped _ | .nop => .ok state

def run (target : Target) (entry : CfiEntry) (pc : UInt64) :
    List (Except Fault Instruction) → RunState → RunState × Option Fault
  | [], state => (state, none)
  | next :: rest, state =>
    if pc < state.location then (state, none)
    else match next >>= fun instruction => step target entry instruction state with
      | .ok state => run target entry pc rest state
      | .error fault => (state, some fault)

def runEntry (target : Target) (entry : CfiEntry) (pc : UInt64) (state : RunState) :
    RunState × Option Fault :=
  match run target entry pc entry.initialProgram state with
  | (state, some fault) => (state, some fault)
  | (state, none) =>
    run target entry pc entry.program state.handOver

structure UnwindRow where
  row : Row
  returnColumn : Register
  functionStart : UInt64
  signalFrame : Bool
  /-- Why the row is only what was built before the programs went wrong. -/
  degraded : Option Fault

def CfiEntry.returnColumn (entry : CfiEntry) (target : Target) : Except Fault Register :=
  target.column entry.kind entry.cie.returnColumn

/-- The column that stands in for a return column that is out of range. No row has it then: the
target's columns are fewer, and no program is run that could add it. -/
def noColumn : Register := ⟨0xffff⟩

def CfiEntry.seedCount (entry : CfiEntry) (target : Target) : Nat :=
  match entry.returnColumn target with
  | .ok column => max target.numRegs.toNat (column.number.toNat + 1)
  | .error _ => target.numRegs.toNat

/-- The rule of a column before any program runs. The return address is where the architecture says,
and unchanged if it says nothing. -/
def seedRule (returnColumn : Register) (initReg : Register → RegisterRule) (r : Register) :
    RegisterRule :=
  match initReg r with
  | .unspecified => if r = returnColumn then .sameValue else .unspecified
  | rule => rule

def CfiEntry.seed (entry : CfiEntry) (target : Target) (initReg : Register → RegisterRule) :
    RunState :=
  let returnColumn := (entry.returnColumn target).toOption.getD noColumn
  let row : Row := {
    rules := (Array.range (entry.seedCount target)).map fun column =>
      seedRule returnColumn initReg ⟨column.toUInt16⟩ }
  { location := entry.start, table := { row }, initial := row }

/-- The row in effect at `pc`, and what was worth a warning on the way. With a return column that is
out of range no program is run. -/
def execute (target : Target) (entry : CfiEntry) (initReg : Register → RegisterRule)
    (pc : UInt64) : UnwindRow × List Warning :=
  let seed := entry.seed target initReg
  let outcome (returnColumn : Register) (row : Row) (degraded : Option Fault) : UnwindRow :=
    { row, returnColumn, functionStart := entry.start
      signalFrame := entry.cie.isSignalFrame, degraded }
  match entry.returnColumn target with
  | .error fault => (outcome noColumn seed.table.row (some fault), [.badReturnColumn fault])
  | .ok returnColumn =>
    match runEntry target entry pc seed with
    | (state, none) => (outcome returnColumn state.table.row none, state.warnings)
    | (state, some fault) =>
      (outcome returnColumn state.table.row (some fault),
        state.warnings ++ [.programStopped entry.fde.offset fault])

end CallFrame
