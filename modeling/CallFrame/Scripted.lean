import CallFrame.Memory
import CallFrame.StoppedProcess

/-!
Collaborators that follow a script, to try the unwinder without a debugged program: a recorded
state, hooks that answer from tables, functions with fixed answers, and an evaluator of one-byte
programs.
-/

namespace CallFrame.Scripted

structure Snapshot where
  registers : List ((Nat × Register) × UInt64) := []
  memory : Memory := {}

namespace Snapshot

def setRegister (s : Snapshot) (level : Nat) (r : Register) (value : Option UInt64) : Snapshot :=
  let others := s.registers.filter fun entry => entry.1 ≠ (level, r)
  { s with registers := (value.map ((level, r), ·)).toList ++ others }

/-- The snapshot as an inferior, which records what it is asked. A read of memory fails as a
whole, by the address it starts at. -/
def inferior (s : Snapshot) : Inferior where
  readRegister level r := do
    record (.register level r)
    match s.registers.lookup (level, r) with
    | some value => return value
    | none => throw (.registerNotRecorded r level)
  readMemory address length := do
    record (.memory address length)
    match s.memory.read address length with
    | .ok bytes => return bytes
    | .error _ => throw (.memoryNotPresent address)

end Snapshot

def recording (evaluator : Evaluator) : Evaluator := fun expression frame initial want => do
  record (.evaluate expression initial want)
  evaluator expression frame initial want

/-- Evaluates programs of one byte: the byte is added to the initial value, or to zero. -/
def byteEvaluator : Evaluator := fun expression _ initial _ =>
  match expression.code with
  | [b] => return initial.getD 0 + b.toUInt64
  | _ => throw (.reported .badExpression "not a one byte program")

def initReg (rules : List (Register × RegisterRule)) (_ : Frame) (r : Register) :
    SessionM RegisterRule :=
  return (rules.reverse.lookup r).getD .unspecified

def signalFrame (levels : List Nat) (pcs : List UInt64) (frame : Frame) : SessionM Bool := do
  if levels.contains frame.level then return true
  else if pcs.isEmpty then return false
  else
    match ← frame.pc.run with
    | .ok pc => return pcs.contains pc
    | .error _ => return false

def adjust (table : List ((SectionKind × UInt64) × UInt64)) (raw : UInt64) (kind : SectionKind) :
    UInt64 :=
  (table.reverse.lookup (kind, raw)).getD raw

def functions (name : String) (frame : Frame) (r : Register) : UnwindM RegisterValue :=
  match name with
  | "magic" => return .computed (0x4200 + r.number.toUInt64)
  | "level" => return .computed frame.level.toUInt64
  | "same" => return .same (← frame.readRegister r)
  | "pc" => return .inRegister frame.target.pc (← frame.pc)
  | "mem" => do
    let address := 0x100 * r.number.toUInt64
    return .inMemory address (← frame.readAddress address)
  | "undefined" => return .undefined
  | "fail" => throw (.reported .badExpression s!"no function for {r.text}")
  | _ => return .unspecified

end CallFrame.Scripted
