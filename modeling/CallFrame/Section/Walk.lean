import CallFrame.Section.Fde

/-!
The walk over a section: entry after entry, each where the one before it ends, until the section
ends, a zero length ends it, or a header cannot be read and there is no telling where the next one
is.
-/

namespace CallFrame

structure Walk where
  headers : List EntryHeader
  /-- Where and why the walk stopped early. -/
  stopped : Option (Nat × Fault)

def Section.walkFrom (area : Section) (endian : Endian) : (fuel offset : Nat) → Walk
  | 0, _ => ⟨[], none⟩
  | fuel + 1, offset =>
    match area.header endian offset with
    | .error fault => ⟨[], some (offset, fault)⟩
    | .ok none => ⟨[], none⟩
    | .ok (some header) =>
      let rest := area.walkFrom endian fuel header.next
      { rest with headers := header :: rest.headers }

/-- Walks the whole section. An entry has more than one byte, so there are fewer entries than bytes,
and one step more sees the end. -/
def Section.walk (area : Section) (endian : Endian) : Walk :=
  area.walkFrom endian (area.data.length + 1) 0

end CallFrame
