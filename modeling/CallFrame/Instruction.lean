import CallFrame.Section.Fde

/-!
Instructions of frame programs, decoded. Registers are as stored, before the architecture
renumbers them, and the factored operands are not multiplied yet. A program is decoded
independently of how far it is run: bytes in, instructions out, with the fault that ended it last.
-/

namespace CallFrame

inductive Instruction where
  -- location
  | setLoc (address : UInt64)
  | advanceLoc (delta : UInt64)
  -- the canonical frame address
  | defCfa (register offset : UInt64)
  | defCfaSf (register : UInt64) (factored : Int64)
  | defCfaRegister (register : UInt64)
  | defCfaOffset (offset : UInt64)
  | defCfaOffsetSf (factored : Int64)
  | defCfaExpression (expression : Expression)
  -- register rules
  | undefined (register : UInt64)
  | sameValue (register : UInt64)
  | offset (register factored : UInt64)
  | offsetExtendedSf (register : UInt64) (factored : Int64)
  | valOffset (register factored : UInt64)
  | valOffsetSf (register : UInt64) (factored : Int64)
  | register (register source : UInt64)
  | expression (register : UInt64) (expression : Expression)
  | valExpression (register : UInt64) (expression : Expression)
  | restore (register : UInt64)
  -- whole rows
  | rememberState
  | restoreState
  -- extensions
  | windowSave
  | negativeOffsetExtended (register factored : UInt64)
  /-- An opcode that can be stepped over and that no rule depends on. -/
  | skipped (opcode : UInt8)
  | nop
  deriving DecidableEq

structure OperandFormat where
  addressSize : UInt8
  encoding : Encoding
  bases : PointerBases

def readExpression : ReadM Expression := Expression.mk <$> readBlock

def readExtended (format : OperandFormat) (start : Nat) (opcode : UInt8) : ReadM Instruction :=
  match opcode with
  | 0x00 => return .nop
  | 0x01 => .setLoc <$> readRequired .omittedTarget format.encoding format.addressSize format.bases
  | 0x02 => return .advanceLoc (← readByte).toUInt64
  | 0x03 => return .advanceLoc (← readWord 2)
  | 0x04 => return .advanceLoc (← readWord 4)
  | 0x05 => return .offset (← readUnsigned) (← readUnsigned)
  | 0x06 => return .restore (← readUnsigned)
  | 0x07 => return .undefined (← readUnsigned)
  | 0x08 => return .sameValue (← readUnsigned)
  | 0x09 => return .register (← readUnsigned) (← readUnsigned)
  | 0x0a => return .rememberState
  | 0x0b => return .restoreState
  | 0x0c => return .defCfa (← readUnsigned) (← readUnsigned)
  | 0x0d => return .defCfaRegister (← readUnsigned)
  | 0x0e => return .defCfaOffset (← readUnsigned)
  | 0x0f => return .defCfaExpression (← readExpression)
  | 0x10 => return .expression (← readUnsigned) (← readExpression)
  | 0x11 => return .offsetExtendedSf (← readUnsigned) (← readSigned)
  | 0x12 => return .defCfaSf (← readUnsigned) (← readSigned)
  | 0x13 => return .defCfaOffsetSf (← readSigned)
  | 0x14 => return .valOffset (← readUnsigned) (← readUnsigned)
  | 0x15 => return .valOffsetSf (← readUnsigned) (← readSigned)
  | 0x16 => return .valExpression (← readUnsigned) (← readExpression)
  | 0x1d => return .advanceLoc (← readWord 8)
  | 0x2d => return .windowSave
  | 0x2e => do
    -- the size of the arguments on the stack: a number that no rule uses
    discard readUnsigned
    return .skipped 0x2e
  | 0x2f => return .negativeOffsetExtended (← readUnsigned) (← readUnsigned)
  | other => throw (.unknownOpcode other start)

/-- Reads one instruction. Three opcodes live in the top two bits of the byte and have an operand in
the other six. -/
def readInstruction (format : OperandFormat) : ReadM Instruction := do
  let start := (← get).offset
  let b ← readByte
  let low := (b &&& 0x3f).toUInt64
  match b >>> 6 with
  | 1 => return .advanceLoc low
  | 2 => return .offset low (← readUnsigned)
  | 3 => return .restore low
  | _ => readExtended format start b

/-- Decodes at most `fuel` instructions. Nothing after one that cannot be decoded is trusted. -/
def decodeFrom (format : OperandFormat) : Nat → Cursor → List (Except Fault Instruction)
  | 0, _ => []
  | fuel + 1, cursor =>
    if cursor.data.isEmpty then []
    else match (readInstruction format).run cursor with
      | (.ok instruction, rest) => .ok instruction :: decodeFrom format fuel rest
      | (.error fault, _) => [.error fault]

/-- Decodes a whole program. Every instruction takes a byte or more, so the bytes bound their
number. -/
def decodeProgram (format : OperandFormat) (cursor : Cursor) : List (Except Fault Instruction) :=
  decodeFrom format cursor.data.length cursor

end CallFrame
