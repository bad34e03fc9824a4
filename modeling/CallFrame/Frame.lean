import CallFrame.Row
import CallFrame.Target
import CallFrame.Warning

/-!
Frames and the outside world. Frame 0 is the innermost one and every frame is the caller of the
frame before it. Each has a slot for what was decoded for it, filled once and dropped with the
frame.

Registers and memory of the debugged program, and the meaning of location expressions, come from
collaborators. A collaborator may itself unwind inner frames, so all of them work on one session:
the slots, the warnings so far, and a record of what was asked and what was decoded.
-/

namespace CallFrame

structure FrameCache where
  /-- The rules, with those for the return address already followed. -/
  row : Row
  /-- How the return address is found. -/
  returnRule : RegisterRule
  returnColumn : Register
  cfa : UInt64
  functionStart : UInt64
  /-- The address that the function was looked up and interpreted at. -/
  lookupPc : UInt64
  signalFrame : Bool
  /-- The return address is lost on purpose: there is no caller. -/
  outermost : Bool
  /-- Why the rules are only a part of what the entry describes. -/
  degraded : Option Fault

/-- Empty until the frame was decoded, well or not. -/
abbrev Slot := Option (Except Fault FrameCache)

structure FrameChain where
  innermost : Slot := none
  callers : List Slot := []

namespace FrameChain

def size (chain : FrameChain) : Nat := chain.callers.length + 1

def outermost (chain : FrameChain) : Nat := chain.callers.length

def contains (chain : FrameChain) (level : Nat) : Bool := level < chain.size

def slot? (chain : FrameChain) : Nat → Option Slot
  | 0 => some chain.innermost
  | level + 1 => chain.callers[level]?

def pushCaller (chain : FrameChain) : FrameChain :=
  { chain with callers := chain.callers ++ [none] }

def truncate (chain : FrameChain) (count : Nat) : FrameChain :=
  { chain with callers := chain.callers.take (count - 1) }

def fill (chain : FrameChain) (result : Except Fault FrameCache) : Nat → FrameChain
  | 0 => { chain with innermost := some result }
  | level + 1 => { chain with callers := chain.callers.set level (some result) }

end FrameChain

inductive Want where
  | address
  | value
  deriving DecidableEq

inductive Request where
  | register (level : Nat) (register : Register)
  | memory (address : UInt64) (length : Nat)
  | evaluate (expression : Expression) (initial : Option UInt64) (want : Want)
  deriving DecidableEq

structure Session where
  chain : FrameChain := {}
  /-- Oldest first. -/
  warnings : List Warning := []
  /-- Oldest first. -/
  requests : List Request := []
  /-- The levels whose decoding was begun, oldest first. -/
  decodings : List Nat := []

abbrev SessionM := StateM Session

/-- A computation over a session that may fail. What it did to the session stays done. -/
abbrev UnwindM := ExceptT Fault SessionM

def warn (warnings : List Warning) : SessionM Unit :=
  modify fun session => { session with warnings := session.warnings ++ warnings }

def record (request : Request) : SessionM Unit :=
  modify fun session => { session with requests := session.requests ++ [request] }

def Session.withDecoding (session : Session) (level : Nat) : Session :=
  { session with decodings := session.decodings ++ [level] }

/-- Access to the state of the debugged program. The registers of an outer frame are what unwinding
the inner ones yields. -/
structure Inferior where
  readRegister : (level : Nat) → Register → UnwindM UInt64
  readMemory : (address : UInt64) → (length : Nat) → UnwindM (List UInt8)

def Inferior.readAddress (inferior : Inferior) (target : Target) (address : UInt64) :
    UnwindM UInt64 := do
  if target.addressSize = 0 ∨ 8 < target.addressSize then
    throw (.unreadableAddressSize target.addressSize)
  else
    let bytes ← inferior.readMemory address target.addressSize.toNat
    return (target.endian.value bytes).toUInt64

structure Frame where
  level : Nat
  target : Target
  inferior : Inferior

namespace Frame

def readRegister (frame : Frame) (r : Register) : UnwindM UInt64 :=
  frame.inferior.readRegister frame.level r

def pc (frame : Frame) : UnwindM UInt64 := frame.readRegister frame.target.pc

def readMemory (frame : Frame) (address : UInt64) (length : Nat) : UnwindM (List UInt8) :=
  frame.inferior.readMemory address length

def readAddress (frame : Frame) (address : UInt64) : UnwindM UInt64 :=
  frame.inferior.readAddress frame.target address

def described (frame : Frame) : String :=
  s!"FrameRef \x7b id: FrameId({frame.level}), arch: {quoted frame.target.name}, .. \x7d"

end Frame

/-- Evaluates a location expression for a frame. The initial value, if any, is on the stack before
the first operation. -/
abbrev Evaluator := Expression → Frame → (initial : Option UInt64) → Want → UnwindM UInt64

/-- The value that a register had in the caller of a frame, and where it is. -/
inductive RegisterValue where
  /-- Not changed by the callee. -/
  | same (value : UInt64)
  | inRegister (register : Register) (value : UInt64)
  | inMemory (address value : UInt64)
  /-- Computed, and stored nowhere. -/
  | computed (value : UInt64)
  | undefined
  | unspecified
  deriving DecidableEq

def RegisterValue.known : RegisterValue → Option UInt64
  | .same value | .inRegister _ value | .inMemory _ value | .computed value => some value
  | .undefined | .unspecified => none

end CallFrame
