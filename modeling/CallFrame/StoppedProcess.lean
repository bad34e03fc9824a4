import CallFrame.Memory
import CallFrame.StackEvaluator
import CallFrame.Unwinder

/-!
A stopped process as its own inferior. The innermost frame has the live registers of the machine,
and every other frame gets its registers by unwinding the frame that it called.
-/

namespace CallFrame

structure Machine where
  registers : List (Register × UInt64) := []
  memory : Memory := {}

namespace Machine

def register? (machine : Machine) (r : Register) : Option UInt64 := machine.registers.lookup r

def setRegister (machine : Machine) (r : Register) (value : Option UInt64) : Machine :=
  let others := machine.registers.filter fun entry => entry.1 ≠ r
  { machine with registers := (value.map (r, ·)).toList ++ others }

def write (machine : Machine) (address : UInt64) (bytes : List UInt8) : Machine :=
  { machine with memory := machine.memory.write address bytes }

def writeWord (machine : Machine) (address value : UInt64) : Machine :=
  machine.write address (littleBytes 8 value.toNat)

end Machine

structure StoppedProcess where
  machine : Machine
  arch : Arch
  cfi : CfiTable

namespace StoppedProcess

def readMemory (p : StoppedProcess) (address : UInt64) (length : Nat) : UnwindM (List UInt8) :=
  match p.machine.memory.read address length with
  | .ok bytes => return bytes
  | .error missing => throw (.memoryNotPresent missing)

def live (p : StoppedProcess) (r : Register) : UnwindM UInt64 :=
  match p.machine.register? r with
  | some value => return value
  | none => throw (.registerNotLive r)

def unwinderOver (p : StoppedProcess) (readRegister : Nat → Register → UnwindM UInt64) :
    Unwinder where
  arch := p.arch
  cfi := p.cfi
  inferior := { readRegister, readMemory := p.readMemory }
  evaluator := stackEvaluator

/-- The registers of the frames up to level `reach`. Those of frame `reach` are what unwinding the
frame inside it yields, which reads registers of the frames before only. What the rules do not
mention is taken to be preserved. -/
def registersTo (p : StoppedProcess) : (reach level : Nat) → Register → UnwindM UInt64
  | 0, _, r => p.live r
  | reach + 1, level, r =>
    if level ≤ reach then p.registersTo reach level r
    else do
      match ← (p.unwinderOver (p.registersTo reach)).recoverRegister reach r with
      | .unspecified => p.registersTo reach reach r
      | value =>
        match value.known with
        | some value => return value
        | none => throw (.registerUndefined r level)

def readRegister (p : StoppedProcess) (level : Nat) (r : Register) : UnwindM UInt64 :=
  p.registersTo level level r

def unwinder (p : StoppedProcess) : Unwinder := p.unwinderOver p.readRegister

end StoppedProcess

end CallFrame
