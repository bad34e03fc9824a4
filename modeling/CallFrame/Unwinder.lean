import CallFrame.Arch
import CallFrame.Index.Search
import CallFrame.Interpreter

/-!
The unwinder: whether a frame can be unwound, what its canonical frame address is, and which value
each register had in its caller. The first question about a frame decodes it, and all later ones
are answered from its slot.

The program counter of a frame that made a call is a return address. It points after the call,
perhaps into the next function, so the function is looked up one byte before. It is exact for the
innermost frame, for the frame that a signal interrupted, and for a signal trampoline that the
architecture recognizes.
-/

namespace CallFrame

inductive UnknownOpcodePolicy where
  /-- The rules before it count. -/
  | bestEffort
  /-- The frame is not unwound. -/
  | failFrame
  deriving DecidableEq

structure Config where
  unknownOpcode : UnknownOpcodePolicy := .bestEffort
  /-- Whether an entry can declare its function a signal trampoline. -/
  signalAugmentation : Bool := true

def Config.refuses (config : Config) (fault : Fault) : Bool :=
  fault.kind = .unknownOpcode && config.unknownOpcode = .failFrame

def Config.admit (config : Config) : Option Fault → Except Fault Unit
  | some fault => if config.refuses fault then .error fault else .ok ()
  | none => .ok ()

inductive FrameKind where
  | normal
  | signalTrampoline
  deriving DecidableEq

def FrameKind.text : FrameKind → String
  | .normal => "Normal"
  | .signalTrampoline => "SignalTrampoline"

inductive FrameId where
  | frame (cfa function : UInt64)
  /-- There is no caller. -/
  | outermost
  deriving DecidableEq

structure FrameBase where
  base : UInt64
  locals : UInt64
  args : UInt64
  deriving DecidableEq

inductive StopReason where
  | outermost
  | failed (fault : Fault)
  deriving DecidableEq

def StopReason.message : StopReason → String
  | .outermost => "unwinding stopped: outermost frame"
  | .failed fault => s!"unwinding stopped: {fault.message}"

structure Located where
  entry : CfiEntry
  lookupPc : UInt64
  signalFrame : Bool

structure Unwinder where
  arch : Arch
  cfi : CfiTable
  inferior : Inferior
  evaluator : Evaluator
  config : Config := {}

namespace Unwinder

def frame (u : Unwinder) (level : Nat) : Frame := ⟨level, u.arch.toTarget, u.inferior⟩

/-! ## Decoding a frame -/

/-- The function at an address, and whether it counts as a signal trampoline: because the architecture
recognized it, or because it declares itself one. -/
def functionAt (u : Unwinder) (recognized : Bool) (lookupPc : UInt64) : Except Fault Located :=
  match u.cfi.find lookupPc with
  | none => .error (.notCovered lookupPc)
  | some entry =>
    let declared := u.config.signalAugmentation && entry.cie.isSignalFrame
    .ok { entry, lookupPc, signalFrame := recognized || declared }

/-- Finds the function of a frame. `exact` answers, for a frame that the architecture does not
recognize as a trampoline, whether its program counter is exact. -/
def locateWith (u : Unwinder) (exact : SessionM Bool) (level : Nat) : UnwindM Located := do
  if !u.arch.dwarfCfi then throw (.unwindingDisabled u.arch.name)
  else if !(← get).chain.contains level then throw (.noFrame level)
  else
    let pc ← (u.frame level).pc
    let recognized ← u.arch.isSignalFrame (u.frame level)
    let isExact ← (if recognized then pure true else exact : SessionM Bool)
    u.functionAt recognized (if isExact then pc else pc - 1)

def evaluateCfa (u : Unwinder) (level : Nat) : Option CfaRule → UnwindM UInt64
  | some (.registerAndOffset r offset) =>
    return (← (u.frame level).readRegister r) + offset.toUInt64
  | some (.expression e) => u.evaluator e (u.frame level) none .address
  | none => throw (.noCfaRule level)

def interpret (u : Unwinder) (level : Nat) (located : Located) : SessionM UnwindRow := do
  let count := located.entry.seedCount u.arch.toTarget
  let rules ← u.arch.initialRules (u.frame level) count
  let initReg (r : Register) := rules.getD r.number.toNat .unspecified
  let (unwound, warnings) := execute u.arch.toTarget located.entry initReg located.lookupPc
  warn warnings
  return unwound

/-- How the return address is found, from the rule of its column. Without a rule of its own the
column still holds it. -/
def returnRule (column : Register) : RegisterRule → RegisterRule
  | .unspecified | .sameValue | .returnAddress | .returnAddressAtOffset _ =>
    .savedInRegister column
  | rule => rule

def followReturn (rule : RegisterRule) (row : Row) : Row :=
  { row with rules := row.rules.map fun r => if r = .returnAddress then rule else r }

def frameCache (located : Located) (unwound : UnwindRow) (cfa : UInt64) : FrameCache :=
  let columnRule := unwound.row.rule unwound.returnColumn
  let rule := returnRule unwound.returnColumn columnRule
  { row := followReturn rule unwound.row
    returnRule := rule
    returnColumn := unwound.returnColumn
    cfa
    functionStart := unwound.functionStart
    lookupPc := located.lookupPc
    signalFrame := located.signalFrame
    outermost := columnRule = .undefined
    degraded := unwound.degraded }

def decodeWith (u : Unwinder) (exact : SessionM Bool) (level : Nat) : UnwindM FrameCache := do
  let located ← u.locateWith exact level
  let unwound ← u.interpret level located
  u.config.admit unwound.degraded
  let cfa ← u.evaluateCfa level unwound.row.cfa
  return frameCache located unwound cfa

def once (level : Nat) (compute : UnwindM FrameCache) : UnwindM FrameCache := do
  match (← get).chain.slot? level with
  | none => throw (.noFrame level)
  | some (some known) => known
  | some none =>
    modify (·.withDecoding level)
    let result ← ExceptT.lift compute.run
    modify fun session => { session with chain := session.chain.fill result level }
    result

/-- Whether the inner frame was decoded as a signal trampoline, so that this one was interrupted and
made no call. -/
def interrupted (inner : UnwindM FrameCache) : SessionM Bool := do
  match ← inner.run with
  | .ok cache => return cache.signalFrame
  | .error _ => return false

/-- What is decoded for a frame. Decoding asks for inner frames only, never back for this one. -/
def cache (u : Unwinder) : Nat → UnwindM FrameCache
  | 0 => once 0 (u.decodeWith (pure true) 0)
  | level + 1 => once (level + 1) (u.decodeWith (interrupted (u.cache level)) (level + 1))

def exactPc (u : Unwinder) : Nat → SessionM Bool
  | 0 => pure true
  | level + 1 => interrupted (u.cache level)

def locate (u : Unwinder) (level : Nat) : UnwindM Located :=
  u.locateWith (u.exactPc level) level

def decode (u : Unwinder) (level : Nat) : UnwindM FrameCache :=
  u.decodeWith (u.exactPc level) level

/-! ## Recovering registers -/

/-- Applies a rule that does not refer to the return address. One that does finds none here. -/
def applyDirect (u : Unwinder) (cache : FrameCache) (level : Nat) (r : Register) :
    RegisterRule → UnwindM RegisterValue
  | .unspecified => return .unspecified
  | .undefined => return .undefined
  | .sameValue => return .same (← (u.frame level).readRegister r)
  | .savedAtOffset offset => do
    let address := cache.cfa + offset.toUInt64
    return .inMemory address (← (u.frame level).readAddress address)
  | .savedInRegister source => return .inRegister source (← (u.frame level).readRegister source)
  | .savedByExpression e => do
    let address ← u.evaluator e (u.frame level) (some cache.cfa) .address
    return .inMemory address (← (u.frame level).readAddress address)
  | .savedValueAtOffset offset => return .computed (cache.cfa + offset.toUInt64)
  | .savedValueByExpression e =>
    return .computed (← u.evaluator e (u.frame level) (some cache.cfa) .value)
  | .callFunction name => u.arch.functions name (u.frame level) r
  | .cfaValue => return .computed cache.cfa
  | .cfaValueAtOffset offset => return .computed (cache.cfa + offset.toUInt64)
  | .returnAddress | .returnAddressAtOffset _ => throw (.noReturnAddress level)

def returnAddress (u : Unwinder) (cache : FrameCache) (level : Nat) : UnwindM RegisterValue :=
  u.applyDirect cache level cache.returnColumn cache.returnRule

def apply (u : Unwinder) (cache : FrameCache) (level : Nat) (r : Register) :
    RegisterRule → UnwindM RegisterValue
  | .returnAddress => u.returnAddress cache level
  | .returnAddressAtOffset offset => do
    match (← u.returnAddress cache level).known with
    | some value => return .computed (value + offset.toUInt64)
    | none => throw (.noReturnAddress level)
  | rule => u.applyDirect cache level r rule

def recoverRegister (u : Unwinder) (level : Nat) (r : Register) : UnwindM RegisterValue := do
  let cache ← u.cache level
  u.apply cache level r (cache.row.rule r)

/-! ## Questions about a frame -/

def canUnwind (u : Unwinder) (level : Nat) : SessionM Bool := do
  return (← (u.locate level).run).toOption.isSome

def computeCfa (u : Unwinder) (level : Nat) : UnwindM UInt64 :=
  return (← u.cache level).cfa

def rule (u : Unwinder) (level : Nat) (r : Register) : UnwindM RegisterRule :=
  return (← u.cache level).row.rule r

def isDegraded (u : Unwinder) (level : Nat) : SessionM Bool := do
  return (← (u.cache level).run).toOption.any (·.degraded.isSome)

def frameBase (u : Unwinder) (level : Nat) : SessionM (Option FrameBase) := do
  if ← u.canUnwind level then
    return (← (u.computeCfa level).run).toOption.map fun cfa => ⟨cfa, cfa, cfa⟩
  else return none

/-- `none` if there is no function for the frame. -/
def frameKind (u : Unwinder) (level : Nat) : SessionM (Option FrameKind) := do
  return (← (u.locate level).run).toOption.map fun located =>
    if located.signalFrame then .signalTrampoline else .normal

def frameId (u : Unwinder) (level : Nat) : UnwindM FrameId := do
  let cache ← u.cache level
  return if cache.outermost then .outermost else .frame cache.cfa cache.functionStart

/-- `none` if nothing speaks against unwinding to the caller. -/
def stopReason (u : Unwinder) (level : Nat) : SessionM (Option StopReason) := do
  match ← (u.cache level).run with
  | .ok cache => return if cache.outermost then some .outermost else none
  | .error fault => return some (.failed fault)

end Unwinder

end CallFrame
