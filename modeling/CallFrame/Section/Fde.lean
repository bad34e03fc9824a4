import CallFrame.Section.Cie

/-!
Frame description entries: the code of one function, and the program that describes its frame.
-/

namespace CallFrame

structure Fde where
  offset : Nat
  cieOffset : Nat
  /-- The first address of the function. -/
  start : UInt64
  /-- How many bytes of code it has. -/
  length : UInt64
  /-- Language specific data. -/
  lsda : Option UInt64
  program : List UInt8
  programOffset : Nat

namespace Fde

/-- The address after the last one. It wraps. -/
def limit (fde : Fde) : UInt64 := fde.start + fde.length

def contains (fde : Fde) (pc : UInt64) : Bool := fde.start ≤ pc && pc < fde.limit

end Fde

def readRequired (absent : Fault) (encoding : Encoding) (size : UInt8) (bases : PointerBases) :
    ReadM UInt64 := do
  match ← readPointer encoding size bases with
  | some value => return value
  | none => throw absent

/-- Reads the data that the common entry's augmentation announces. The length alone is read where no
pointer is announced. -/
def readLsda (size : UInt8) (bases : PointerBases) : Option Augmentation → ReadM (Option UInt64)
  | none => return none
  | some aug =>
    readInBlock <| match aug.lsdaEncoding with
      | some encoding => readPointer encoding.direct size bases
      | none => return none

def readFde (offset : Nat) (cie : Cie) (bases : PointerBases) : ReadM Fde := do
  let start ← readRequired .omittedLocation cie.fdeEncoding cie.addressSize bases
  let length ← readRequired .omittedRange cie.fdeEncoding.formatOnly cie.addressSize bases
  let bases := { bases with function := some start }
  let lsda ← readLsda cie.addressSize bases cie.augmentation
  let rest ← get
  return {
    offset, cieOffset := cie.offset, start, length, lsda
    program := rest.data, programOffset := rest.offset }

def EntryHeader.fde (header : EntryHeader) (cie : Cie) (area : Section) (layout : Layout) :
    Except Fault Fde :=
  (readFde header.offset cie (area.bases layout)).value header.body

end CallFrame
