import CallFrame.Index.Build

/-!
Looking a function up by an address. The index is sorted by first address, and each place also
knows how far the entries up to it reach. The search starts at the last entry that does not begin
after the address and goes back until no entry before can reach it. Where entries overlap the one
indexed last is found.
-/

namespace CallFrame

/-- Where a sorted array stops satisfying a predicate, searched between two places. -/
def partitionBetween (p : α → Bool) (xs : Array α) (lo hi : Nat) : Nat :=
  if lo < hi then
    let mid := (lo + hi) / 2
    if xs[mid]?.any p then partitionBetween p xs (mid + 1) hi
    else partitionBetween p xs lo mid
  else lo
termination_by hi - lo

def partitionPoint (p : α → Bool) (xs : Array α) : Nat :=
  partitionBetween p xs 0 xs.size

/-- A place of the index: its entry, and the highest end of the entries up to it. -/
structure Place where
  item : IndexEntry
  reach : UInt64

structure CfiIndex where
  name : String
  /-- The common entries that the functions share. -/
  cies : Array Cie
  /-- By first address, of equal ones in the order of indexing. -/
  places : Array Place
  dropped : Nat

/-- Puts an entry that was indexed after all others at its place in a descending list. Producers
emit functions by ascending address, so it nearly always goes first. -/
def insertEntry (e : IndexEntry) : List IndexEntry → List IndexEntry
  | [] => [e]
  | first :: rest =>
    if first.low ≤ e.low then e :: first :: rest else first :: insertEntry e rest

def sortEntries (entries : List IndexEntry) : List IndexEntry :=
  (entries.foldr insertEntry []).reverse

def placesFrom (reach : UInt64) : List IndexEntry → List Place
  | [] => []
  | e :: rest => ⟨e, max reach e.high⟩ :: placesFrom (max reach e.high) rest

def LoadedModule.index (module : LoadedModule) : CfiIndex × List Warning :=
  let built := module.scan
  ({ name := module.name
     cies := built.cies
     places := (placesFrom 0 (sortEntries built.entries)).toArray
     dropped := built.dropped }, built.warnings)

def later (e : IndexEntry) : Option IndexEntry → IndexEntry
  | none => e
  | some best => if best.seq < e.seq then e else best

def searchBelow (places : Array Place) (pc : UInt64) :
    (count : Nat) → Option IndexEntry → Option IndexEntry
  | 0, best => best
  | i + 1, best =>
    match places[i]? with
    | none => best
    | some place =>
      if place.reach ≤ pc then best
      else if pc < place.item.high then searchBelow places pc i (later place.item best)
      else searchBelow places pc i best

namespace CfiIndex

def size (index : CfiIndex) : Nat := index.places.size

def entryOf (index : CfiIndex) (e : IndexEntry) : Option CfiEntry :=
  (index.cies[e.cie]?).map fun cie =>
    { cie, fde := e.fde, kind := e.kind, bias := e.low - e.fde.start
      endian := e.endian, bases := e.bases }

def find (index : CfiIndex) (pc : UInt64) : Option CfiEntry :=
  let count := partitionPoint (·.item.low ≤ pc) index.places
  (searchBelow index.places pc count none).bind index.entryOf

end CfiIndex

/-- The functions of all loaded modules, in the order of loading. -/
structure CfiTable where
  modules : List CfiIndex := []

namespace CfiTable

def add (table : CfiTable) (index : CfiIndex) : CfiTable :=
  { modules := table.modules ++ [index] }

def load (table : CfiTable) (module : LoadedModule) : CfiTable × List Warning :=
  let (index, warnings) := module.index
  (table.add index, warnings)

/-- Forgets the module of this name that was loaded last. -/
def unload (table : CfiTable) (name : String) : Option (CfiIndex × CfiTable) :=
  let newest := table.modules.reverse
  (newest.find? (·.name = name)).map fun index =>
    (index, { modules := (newest.eraseP (·.name = name)).reverse })

def find (table : CfiTable) (pc : UInt64) : Option CfiEntry :=
  table.modules.reverse.findSome? (·.find pc)

end CfiTable

end CallFrame
