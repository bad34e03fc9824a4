import CallFrame.Register
import CallFrame.Text.Quoted
import CallFrame.Text.Utf8

/-!
What can go wrong while call frame information is read or a frame is recovered: one cause for each
way to fail, its kind, and its wording.
-/

namespace CallFrame

inductive FaultKind where
  | malformedCie
  | malformedFde
  | unknownOpcode
  | unreadableRegister
  | unreadableMemory
  | badExpression
  | noCfi
  | missingCfa
  deriving DecidableEq

def FaultKind.text : FaultKind → String
  | .malformedCie => "malformed CIE"
  | .malformedFde => "malformed FDE"
  | .unknownOpcode => "unknown CFA opcode"
  | .unreadableRegister => "unreadable register"
  | .unreadableMemory => "unreadable memory"
  | .badExpression => "bad DWARF expression"
  | .noCfi => "no call frame information"
  | .missingCfa => "no CFA rule"

inductive Fault where
  -- bytes and pointers
  | readPastEnd (wanted available : Nat)
  | unsignedTooLarge
  | signedTooLarge
  | unsupportedAddressSize (size : UInt8)
  | unterminatedText
  | brokenText (defect : Utf8.Defect)
  | zeroAlignment
  | unknownPointerFormat (format : UInt8)
  | unknownPointerApplication (application : UInt8)
  | indirectPointer
  | noTextBase
  | noDataBase
  | noFunctionBase
  -- entries of a section
  | entryOutOfBounds (offset : Nat)
  | entryPastEnd (offset : Nat) (length : UInt64)
  | notACie (offset : Nat)
  | unsupportedVersion (version : UInt8)
  | segmentSelectors (size : UInt8)
  | zeroCodeAlignment
  | zeroDataAlignment
  | unknownAugmentation (text : String)
  | ciePointerBeforeSection (pointer : UInt64)
  | omittedLocation
  | omittedRange
  | noEntry (offset : Nat)
  | noUsableCie (offset : Nat)
  -- programs
  | unknownOpcode (opcode : UInt8) (offset : Nat)
  | omittedTarget
  | registerOutOfRange (number : UInt64)
  | factoredOffsetTooLarge (factored : Int)
  | cfaOffsetTooLarge (offset : UInt64)
  | tooManyRememberedRows (limit : Nat)
  -- frames
  | unwindingDisabled (arch : String)
  | noFrame (level : Nat)
  | notCovered (pc : UInt64)
  | noCfaRule (level : Nat)
  | noReturnAddress (level : Nat)
  | unreadableAddressSize (size : UInt8)
  -- the state of the debugged program
  | registerNotLive (register : Register)
  | registerNotRecorded (register : Register) (level : Nat)
  | registerUndefined (register : Register) (level : Nat)
  | memoryNotPresent (address : UInt64)
  -- location expressions
  | truncatedOperand
  | addToEmptyStack
  | loadFromEmptyStack
  | emptyStack
  | unsupportedOperation (opcode : UInt8)
  /-- Reported by a collaborator, in its own words. -/
  | reported (kind : FaultKind) (detail : String)
  deriving DecidableEq

namespace Fault

def kind : Fault → FaultKind
  | .readPastEnd .. | .unsignedTooLarge | .signedTooLarge | .zeroAlignment
  | .unknownPointerFormat _ | .unknownPointerApplication _ | .indirectPointer
  | .noTextBase | .noDataBase | .noFunctionBase
  | .entryOutOfBounds _ | .entryPastEnd .. | .ciePointerBeforeSection _
  | .omittedLocation | .omittedRange | .noUsableCie _ | .omittedTarget
  | .registerOutOfRange _ | .factoredOffsetTooLarge _ | .cfaOffsetTooLarge _
  | .tooManyRememberedRows _ => .malformedFde
  | .unsupportedAddressSize _ | .unterminatedText | .brokenText _ | .notACie _
  | .unsupportedVersion _ | .segmentSelectors _ | .zeroCodeAlignment | .zeroDataAlignment
  | .unknownAugmentation _ | .noEntry _ => .malformedCie
  | .unknownOpcode .. => .unknownOpcode
  | .noReturnAddress _ | .registerNotLive _ | .registerNotRecorded ..
  | .registerUndefined .. => .unreadableRegister
  | .unreadableAddressSize _ | .memoryNotPresent _ => .unreadableMemory
  | .truncatedOperand | .addToEmptyStack | .loadFromEmptyStack | .emptyStack
  | .unsupportedOperation _ => .badExpression
  | .unwindingDisabled _ | .noFrame _ | .notCovered _ => .noCfi
  | .noCfaRule _ => .missingCfa
  | .reported kind _ => kind

def brokenLength : Option Nat → String
  | none => "None"
  | some n => s!"Some({n})"

def detail : Fault → String
  | .readPastEnd wanted available =>
    s!"index out of bounds, tried to read {wanted} bytes from {available}"
  | .unsignedTooLarge => "ULEB128 overflows 64 bits"
  | .signedTooLarge => "SLEB128 overflows 64 bits"
  | .unsupportedAddressSize size | .unreadableAddressSize size =>
    s!"unsupported address size {size.toNat}"
  | .unterminatedText => "no null terminator found for string"
  | .brokenText defect =>
    s!"invalid utf8: Utf8Error \x7b valid_up_to: {defect.validUpTo}, " ++
      s!"error_len: {brokenLength defect.brokenLength} \x7d"
  | .zeroAlignment => "alignment to a zero address size"
  | .unknownPointerFormat format => s!"invalid pointer format {hex format.toNat}"
  | .unknownPointerApplication application =>
    s!"invalid pointer application {hex application.toNat}"
  | .indirectPointer => "DW_EH_PE_indirect pointers are not supported"
  | .noTextBase => "DW_EH_PE_textrel without a text base"
  | .noDataBase => "DW_EH_PE_datarel without a data base"
  | .noFunctionBase => "DW_EH_PE_funcrel outside of an FDE"
  | .entryOutOfBounds offset => s!"entry offset {hex offset} out of bounds"
  | .entryPastEnd offset length =>
    s!"entry at {hex offset} has length {hex length.toNat} running past the section end"
  | .notACie offset => s!"entry at {hex offset} is not a CIE"
  | .unsupportedVersion version => s!"unsupported CIE version {version.toNat}"
  | .segmentSelectors size => s!"segment selectors are not supported (size {size.toNat})"
  | .zeroCodeAlignment => "code alignment factor is zero"
  | .zeroDataAlignment => "data alignment factor is zero"
  | .unknownAugmentation text => s!"unknown augmentation {quoted text}"
  | .ciePointerBeforeSection pointer =>
    s!"CIE pointer {hex pointer.toNat} points before the section"
  | .omittedLocation => "FDE initial location is omitted"
  | .omittedRange => "FDE address range is omitted"
  | .noEntry offset => s!"no entry at {hex offset}"
  | .noUsableCie offset => s!"no usable CIE at {hex offset}"
  | .unknownOpcode opcode offset => s!"opcode {hexByte opcode} at offset {hex offset}"
  | .omittedTarget => "DW_CFA_set_loc with omitted address"
  | .registerOutOfRange number => s!"register number {number.toNat} out of range"
  | .factoredOffsetTooLarge factored => s!"factored offset {factored} overflows"
  | .cfaOffsetTooLarge offset => s!"CFA offset {offset.toNat} overflows"
  | .tooManyRememberedRows limit => s!"DW_CFA_remember_state nested deeper than {limit}"
  | .unwindingDisabled arch => s!"DWARF CFI unwinding is disabled for {arch}"
  | .noFrame level => s!"no frame at level {level}"
  | .notCovered pc => s!"no FDE covers {hex pc.toNat}"
  | .noCfaRule level => s!"frame {level} has no CFA rule"
  | .noReturnAddress level => s!"return address of frame {level} is not available"
  | .registerNotLive register => s!"{register.text} is not live"
  | .registerNotRecorded register level => s!"{register.text} in frame {level}"
  | .registerUndefined register level => s!"{register.text} is undefined in frame {level}"
  | .memoryNotPresent address => hex address.toNat
  | .truncatedOperand => "truncated LEB128"
  | .addToEmptyStack => "DW_OP_plus_uconst on empty stack"
  | .loadFromEmptyStack => "DW_OP_deref on empty stack"
  | .emptyStack => "empty stack"
  | .unsupportedOperation opcode => s!"unsupported opcode {hex opcode.toNat}"
  | .reported _ detail => detail

def message (fault : Fault) : String := s!"{fault.kind.text}: {fault.detail}"

end Fault

end CallFrame
