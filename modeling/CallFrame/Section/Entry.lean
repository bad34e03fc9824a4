import CallFrame.Section

/-!
The prelude that all entries of a section share: a length, in a 32-bit or a 64-bit form, and an id
that tells the two kinds of entries apart. An id that does not name a common entry points at one,
from the start of the section or, in the exception handling variant, back from the id itself.
-/

namespace CallFrame

structure EntryHeader where
  offset : Nat
  id : UInt64
  idOffset : Nat
  /-- Whether the length has the 64-bit form. -/
  wide : Bool
  /-- Everything after the id. -/
  body : Cursor
  /-- Where the next entry starts. -/
  next : Nat

/-- The id takes the width of the form, except that the exception handling variant always has four
bytes. -/
def idWidth (kind : SectionKind) (wide : Bool) : Nat :=
  if wide && kind = .debugFrame then 8 else 4

def readLength : ReadM (Bool × UInt64) := do
  let short ← readWord 4
  if short = 0xffffffff then return (true, ← readWord 8)
  else return (false, short)

/-- Reads the entry behind its length field. It is a region of its own: nothing in it can read past
its length. -/
def readEntry (kind : SectionKind) (offset : Nat) (wide : Bool) (length : UInt64) :
    ReadM EntryHeader := do
  let content ← get
  if content.data.length < length.toNat then throw (.entryPastEnd offset length)
  else
    let entry := { content with data := ← readBytes length.toNat }
    let (id, body) := (readWord (idWidth kind wide)).run entry
    return {
      offset
      id := ← id
      idOffset := content.offset
      wide
      body
      next := content.offset + length.toNat }

/-- Reads the header at the cursor. `none` at the end of the bytes and at a zero length. -/
def readHeader (kind : SectionKind) : ReadM (Option EntryHeader) := do
  let start ← get
  if start.data.isEmpty then return none
  else
    let (wide, length) ← readLength
    if length = 0 then return none
    else some <$> readEntry kind start.offset wide length

def Section.header (area : Section) (endian : Endian) (offset : Nat) :
    Except Fault (Option EntryHeader) :=
  if area.data.length < offset then .error (.entryOutOfBounds offset)
  else (readHeader area.kind).value ⟨area.data.drop offset, offset, endian⟩

namespace EntryHeader

def isCie (header : EntryHeader) : SectionKind → Bool
  | .ehFrame => header.id = 0
  | .debugFrame => header.id = if header.wide then 0xffffffffffffffff else 0xffffffff

def cieOffset (header : EntryHeader) : SectionKind → Except Fault Nat
  | .debugFrame => .ok header.id.toNat
  | .ehFrame =>
    if header.id.toNat ≤ header.idOffset then .ok (header.idOffset - header.id.toNat)
    else .error (.ciePointerBeforeSection header.id)

end EntryHeader

end CallFrame
