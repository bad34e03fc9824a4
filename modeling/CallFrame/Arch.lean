import CallFrame.Frame

/-!
Architectures: a target and what it adds to the generic rules, namely default rules for registers,
the recognition of signal trampolines, the numbering of registers (which is part of the target),
and functions that recover a register where no rule can say how.
-/

namespace CallFrame

structure Arch extends Target where
  /-- The rule of a register before any program runs. -/
  initReg : Option (Frame → Register → SessionM RegisterRule) := none
  /-- Whether a frame is a signal trampoline. -/
  signalFrame : Option (Frame → SessionM Bool) := none
  /-- Functions by the name that rules call them by. An unknown name says nothing. -/
  functions : String → Frame → Register → UnwindM RegisterValue := fun _ _ _ => return .unspecified

namespace Arch

def replaced (arch : Arch) (hook : Hook) (isSet : Bool) : List Warning :=
  if isSet then [.hookReplaced hook arch.name] else []

def setInitReg (arch : Arch) (hook : Frame → Register → SessionM RegisterRule) :
    Arch × List Warning :=
  ({ arch with initReg := some hook }, arch.replaced .initReg arch.initReg.isSome)

def setSignalFrame (arch : Arch) (hook : Frame → SessionM Bool) : Arch × List Warning :=
  ({ arch with signalFrame := some hook }, arch.replaced .signalFrame arch.signalFrame.isSome)

def setAdjust (arch : Arch) (hook : UInt64 → SectionKind → UInt64) : Arch × List Warning :=
  ({ arch with adjust := some hook }, arch.replaced .adjustRegister arch.adjust.isSome)

def initialRule (arch : Arch) (frame : Frame) (r : Register) : SessionM RegisterRule :=
  match arch.initReg with
  | some hook => hook frame r
  | none => return .unspecified

def initialRules (arch : Arch) (frame : Frame) (count : Nat) : SessionM (Array RegisterRule) :=
  match arch.initReg with
  | some hook => do
    let rules ← (List.range count).mapM fun column => hook frame ⟨column.toUInt16⟩
    return rules.toArray
  | none => return #[]

def isSignalFrame (arch : Arch) (frame : Frame) : SessionM Bool :=
  match arch.signalFrame with
  | some hook => hook frame
  | none => return false

def described (arch : Arch) : String :=
  let endian := match arch.endian with
    | .little => "Little"
    | .big => "Big"
  s!"Arch \x7b name: {quoted arch.name}, address_size: {arch.addressSize.toNat}, " ++
    s!"endian: {endian}, num_regs: {arch.numRegs.toNat}, " ++
    s!"pc_regnum: {arch.pc.described}, sp_regnum: {arch.sp.described}, " ++
    s!"dwarf_cfi: {arch.dwarfCfi}, register_windows: {arch.registerWindows}, " ++
    s!"hooks: Hooks \x7b init_reg: {arch.initReg.isSome}, " ++
    s!"signal_frame_p: {arch.signalFrame.isSome}, adjust_regnum: {arch.adjust.isSome} \x7d \x7d"

end Arch

def usualInitReg (frame : Frame) (r : Register) : SessionM RegisterRule :=
  return if r = frame.target.pc then .returnAddress
    else if r = frame.target.sp then .cfaValue
    else .unspecified

namespace Amd64

def rbp : Register := ⟨6⟩

def rsp : Register := ⟨7⟩

/-- The return address column, which stands in for the instruction pointer. -/
def rip : Register := ⟨16⟩

/-- The code that returns from a signal handler: load the number of the system call, then call. -/
def signalReturnCode : List UInt8 := [0x48, 0xc7, 0xc0, 0x0f, 0x00, 0x00, 0x00, 0x0f, 0x05]

def signalReturnCall : UInt64 := 7

def hasSignalReturn (frame : Frame) (address : UInt64) : SessionM Bool := do
  match ← (frame.readMemory address signalReturnCode.length).run with
  | .ok code => return code = signalReturnCode
  | .error _ => return false

def isSignalReturn (frame : Frame) : SessionM Bool := do
  match ← frame.pc.run with
  | .error _ => return false
  | .ok pc =>
    if ← hasSignalReturn frame pc then return true
    else if pc < signalReturnCall then return false
    else hasSignalReturn frame (pc - signalReturnCall)

def linux : Arch where
  name := "amd64-linux"
  addressSize := 8
  endian := .little
  numRegs := 17
  pc := rip
  sp := rsp
  initReg := some usualInitReg
  signalFrame := some isSignalReturn

end Amd64

namespace I386

def esp : Register := ⟨4⟩

def ebp : Register := ⟨5⟩

def eip : Register := ⟨8⟩

/-- The exception handling variant numbers the stack and the base pointer the other way around. -/
def exchangeInEhFrame (raw : UInt64) : SectionKind → UInt64
  | .ehFrame => if raw = 4 then 5 else if raw = 5 then 4 else raw
  | .debugFrame => raw

def darwin : Arch where
  name := "i386-darwin"
  addressSize := 4
  endian := .little
  numRegs := 9
  pc := eip
  sp := esp
  adjust := some exchangeInEhFrame
  initReg := some usualInitReg

end I386

end CallFrame
