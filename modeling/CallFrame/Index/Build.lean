import CallFrame.CfiEntry
import CallFrame.Section.Walk
import CallFrame.Warning

/-!
Indexing a module's functions by the addresses they cover. Both sections are walked once. An entry
that is broken costs itself alone; a header that is broken costs the rest of its section. Each
common entry is read once, when it is first met or pointed at.
-/

namespace CallFrame

structure LoadedModule where
  name : String
  layout : Layout := {}
  /-- From link-time to run-time addresses. -/
  bias : UInt64 := 0
  ehFrame : Option Section := none
  debugFrame : Option Section := none

/-- The sections in the order in which they are indexed. -/
def LoadedModule.sections (module : LoadedModule) : List Section :=
  module.ehFrame.toList ++ module.debugFrame.toList

structure IndexEntry where
  low : UInt64
  /-- The address after the last one that is covered. A function that would pass the last address
  ends there. -/
  high : UInt64
  /-- How many entries were indexed before. Of two that cover an address the later one counts. -/
  seq : Nat
  fde : Fde
  /-- Place of the common entry. -/
  cie : Nat
  kind : SectionKind
  endian : Endian
  bases : PointerBases

def IndexEntry.covers (e : IndexEntry) (pc : UInt64) : Bool := e.low ≤ pc && pc < e.high

/-- The sum of an address and a length, or the last address if the sum is no address. -/
def saturatingEnd (low length : UInt64) : UInt64 :=
  (min (low.toNat + length.toNat) 0xffffffffffffffff).toUInt64

structure Builder where
  /-- The common entries of all sections, in the order in which they were read. -/
  cies : Array Cie := #[]
  /-- Offsets of the current section, each with the place of the common entry there, if any. -/
  tried : List (Nat × Option Nat) := []
  /-- Newest first. -/
  entries : List IndexEntry := []
  dropped : Nat := 0
  /-- Oldest first. -/
  warnings : List Warning := []

namespace Builder

def drop (b : Builder) (warning : Warning) : Builder :=
  { b with dropped := b.dropped + 1, warnings := b.warnings ++ [warning] }

/-- The place of the common entry at an offset, which is read if it was not tried before. -/
def cie (module : LoadedModule) (area : Section) (offset : Nat) (b : Builder) :
    Option Nat × Builder :=
  match b.tried.lookup offset with
  | some known => (known, b)
  | none =>
    match area.cie module.layout offset with
    | .ok cie =>
      let place := b.cies.size
      (some place,
        { b with cies := b.cies.push cie, tried := (offset, some place) :: b.tried })
    | .error fault =>
      let b := { b with tried := (offset, none) :: b.tried }
      (none, b.drop (.cieDropped module.name area.kind offset fault))

def push (module : LoadedModule) (area : Section) (cie : Nat) (fde : Fde) (b : Builder) :
    Builder :=
  let low := fde.start + module.bias
  let indexed : IndexEntry := {
    low, high := saturatingEnd low fde.length, seq := b.entries.length, fde, cie
    kind := area.kind, endian := module.layout.endian
    bases := { area.bases module.layout with function := some fde.start } }
  { b with entries := indexed :: b.entries }

def function (module : LoadedModule) (area : Section) (header : EntryHeader) (b : Builder) :
    Except Fault (Nat × Fde) × Builder :=
  match header.cieOffset area.kind with
  | .error fault => (.error fault, b)
  | .ok offset =>
    let (place, b) := b.cie module area offset
    match place.bind fun place => (b.cies[place]?).map (place, ·) with
    | none => (.error (.noUsableCie offset), b)
    | some (place, cie) => ((header.fde cie area module.layout).map (place, ·), b)

/-- Indexes what stands behind a header. A function without code covers nothing and is no loss. -/
def visit (module : LoadedModule) (area : Section) (b : Builder) (header : EntryHeader) :
    Builder :=
  if header.isCie area.kind then (b.cie module area header.offset).2
  else
    match b.function module area header with
    | (.error fault, b) => b.drop (.fdeDropped module.name area.kind header.offset fault)
    | (.ok (place, fde), b) => if fde.length = 0 then b else b.push module area place fde

/-- Indexes a section. Offsets of the section before it mean nothing in it. -/
def scan (module : LoadedModule) (b : Builder) (area : Section) : Builder :=
  let walk := area.walk module.layout.endian
  let b := walk.headers.foldl (visit module area) { b with tried := [] }
  match walk.stopped with
  | none => b
  | some (offset, fault) => b.drop (.scanStopped module.name area.kind offset fault)

end Builder

def LoadedModule.scan (module : LoadedModule) : Builder :=
  module.sections.foldl (Builder.scan module) {}

end CallFrame
