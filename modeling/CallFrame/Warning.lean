import CallFrame.Section

/-!
What is worth a warning and does not stop anything, with its wording.
-/

namespace CallFrame

inductive Hook where
  | initReg
  | signalFrame
  | adjustRegister
  deriving DecidableEq

def Hook.text : Hook → String
  | .initReg => "init_reg"
  | .signalFrame => "signal_frame_p"
  | .adjustRegister => "adjust_regnum"

inductive Warning where
  | hookReplaced (hook : Hook) (arch : String)
  | scanStopped (module : String) (kind : SectionKind) (offset : Nat) (fault : Fault)
  | cieDropped (module : String) (kind : SectionKind) (offset : Nat) (fault : Fault)
  | fdeDropped (module : String) (kind : SectionKind) (offset : Nat) (fault : Fault)
  | movedBackwards (source target : UInt64)
  | cfaRegisterAlone
  | cfaOffsetAlone
  | nothingRemembered
  | badReturnColumn (fault : Fault)
  | programStopped (fde : Nat) (fault : Fault)
  deriving DecidableEq

def Warning.message : Warning → String
  | .hookReplaced hook arch => s!"{hook.text} hook of {arch} registered twice"
  | .scanStopped module kind offset fault =>
    s!"{module}: giving up on {kind.text} at {hex offset}: {fault.message}"
  | .cieDropped module kind offset fault =>
    s!"{module}: dropping CIE at {hex offset} in {kind.text}: {fault.message}"
  | .fdeDropped module kind offset fault =>
    s!"{module}: dropping FDE at {hex offset} in {kind.text}: {fault.message}"
  | .movedBackwards source target =>
    s!"DW_CFA_set_loc moves backwards from {hex source.toNat} to {hex target.toNat}"
  | .cfaRegisterAlone => "DW_CFA_def_cfa_register without a register CFA rule"
  | .cfaOffsetAlone => "DW_CFA_def_cfa_offset without a register CFA rule, ignored"
  | .nothingRemembered => "DW_CFA_restore_state without a matching DW_CFA_remember_state"
  | .badReturnColumn fault => s!"bad return address column: {fault.message}"
  | .programStopped fde fault =>
    s!"CFA program of FDE at {hex fde} stopped early: {fault.message}"

end CallFrame
