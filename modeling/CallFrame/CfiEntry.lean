import CallFrame.Instruction

/-!
All that is needed to interpret the frame description of one function as it is loaded.
-/

namespace CallFrame

structure CfiEntry where
  cie : Cie
  fde : Fde
  kind : SectionKind
  /-- From an address in the entry to a run-time address. -/
  bias : UInt64
  endian : Endian
  bases : PointerBases

namespace CfiEntry

def start (entry : CfiEntry) : UInt64 := entry.fde.start + entry.bias

/-- Run-time address after the last byte. It wraps. -/
def limit (entry : CfiEntry) : UInt64 := entry.fde.limit + entry.bias

def operandFormat (entry : CfiEntry) : OperandFormat where
  addressSize := entry.cie.addressSize
  encoding := entry.cie.fdeEncoding
  bases := entry.bases

def decode (entry : CfiEntry) (program : List UInt8) (offset : Nat) :
    List (Except Fault Instruction) :=
  decodeProgram entry.operandFormat ⟨program, offset, entry.endian⟩

/-- The program that the function shares with others. -/
def initialProgram (entry : CfiEntry) : List (Except Fault Instruction) :=
  entry.decode entry.cie.program entry.cie.programOffset

def program (entry : CfiEntry) : List (Except Fault Instruction) :=
  entry.decode entry.fde.program entry.fde.programOffset

end CfiEntry

end CallFrame
