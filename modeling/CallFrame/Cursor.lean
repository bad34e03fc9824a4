import CallFrame.Endian
import CallFrame.Fault
import CallFrame.Leb128

/-!
Bounds-checked reading. A cursor holds the bytes that are left and the offset of the first of them
within the section, which relative pointers and messages need. A read that fails keeps what it had
consumed before.
-/

namespace CallFrame

structure Cursor where
  data : List UInt8
  offset : Nat
  endian : Endian

/-- A reading step. The cursor is part of the result even when the step fails. -/
abbrev ReadM := ExceptT Fault (StateM Cursor)

def ReadM.value (read : ReadM α) (cursor : Cursor) : Except Fault α :=
  (read.run cursor).1

def readBytes (count : Nat) : ReadM (List UInt8) := do
  let cursor ← get
  if cursor.data.length < count then throw (.readPastEnd count cursor.data.length)
  else
    set { cursor with data := cursor.data.drop count, offset := cursor.offset + count }
    return cursor.data.take count

def readByte : ReadM UInt8 := do
  let cursor ← get
  match cursor.data with
  | [] => throw (.readPastEnd 1 0)
  | b :: rest =>
    set { cursor with data := rest, offset := cursor.offset + 1 }
    return b

def readWord (width : Nat) : ReadM UInt64 := do
  let cursor ← get
  let bytes ← readBytes width
  return (cursor.endian.value bytes).toUInt64

def readAddress (size : UInt8) : ReadM UInt64 :=
  if size = 2 ∨ size = 4 ∨ size = 8 then readWord size.toNat
  else throw (.unsupportedAddressSize size)

def Leb128.Defect.fault (tooLarge : Fault) : Leb128.Defect → Fault
  | .truncated => .readPastEnd 1 0
  | .tooLarge => tooLarge

def readLeb (decoder : List UInt8 → Except Leb128.Defect α × List UInt8) (tooLarge : Fault) :
    ReadM α := do
  let cursor ← get
  let (value, rest) := decoder cursor.data
  set { cursor with
    data := rest, offset := cursor.offset + (cursor.data.length - rest.length) }
  match value with
  | .ok value => return value
  | .error defect => throw (defect.fault tooLarge)

def readUnsigned : ReadM UInt64 := readLeb Leb128.unsigned .unsignedTooLarge

def readSigned : ReadM Int64 := readLeb Leb128.signed .signedTooLarge

/-- Reads the text before the next zero byte, and that byte. Bytes that are not text are consumed
all the same; a missing zero byte consumes nothing. -/
def readText : ReadM String := do
  let cursor ← get
  let bytes := cursor.data.takeWhile (· ≠ 0)
  if bytes.length = cursor.data.length then throw .unterminatedText
  else
    discard <| readBytes (bytes.length + 1)
    match Utf8.decode bytes with
    | .ok text => return text
    | .error defect => throw (.brokenText defect)

def readBlock : ReadM (List UInt8) := do
  let length ← readUnsigned
  readBytes length.toNat

def alignTo (size : UInt8) : ReadM Unit := do
  let cursor ← get
  if size = 0 then throw .zeroAlignment
  else
    let past := cursor.offset % size.toNat
    if past ≠ 0 then discard <| readBytes (size.toNat - past)

end CallFrame
