import CallFrame.Proofs.IndexLookup
import CallFrame.Proofs.ReadingInBounds

/-!
Indexing and looking up on the machine that stops. The place of a common entry has to be there when a
function is read and again when it is found, and the highest ends stand in an array of their own, which
has to be as long as the one of the entries. In small sections all of this is in order: the index of a
module is built, and searched for any address, with the results that it has elsewhere.
-/

namespace CallFrame

namespace Checked

/-! Building the index. -/

def drop (b : Builder) (warning : Warning) : Except Trap Builder := do
  let dropped ← sum wordLimit b.dropped 1
  return { b with dropped, warnings := b.warnings ++ [warning] }

def cie (module : LoadedModule) (area : Section) (offset : Nat) (b : Builder) :
    Except Trap (Option Nat × Builder) := do
  match b.tried.lookup offset with
  | some known => return (known, b)
  | none =>
    match ← (commonEntry area module.layout offset).run with
    | .ok cie =>
      let cies := b.cies.push cie
      let place ← difference cies.size 1
      return (some place, { b with cies, tried := (offset, some place) :: b.tried })
    | .error fault =>
      let b := { b with tried := (offset, none) :: b.tried }
      return (none, ← drop b (.cieDropped module.name area.kind offset fault))

def function (module : LoadedModule) (area : Section) (header : EntryHeader) (b : Builder) :
    Except Trap (Except Fault (Nat × Fde) × Builder) := do
  match header.cieOffset area.kind with
  | .error fault => return (.error fault, b)
  | .ok offset =>
    match ← cie module area offset b with
    | (none, b) => return (.error (.noUsableCie offset), b)
    | (some place, b) =>
      let cie ← inside b.cies[place]?
      let fde ← (headerFde header cie area module.layout).run
      return (fde.map (place, ·), b)

def visit (module : LoadedModule) (area : Section) (b : Builder) (header : EntryHeader) :
    Except Trap Builder := do
  if header.isCie area.kind then
    let (_, b) ← cie module area header.offset b
    return b
  else
    match ← function module area header b with
    | (.error fault, b) => drop b (.fdeDropped module.name area.kind header.offset fault)
    | (.ok (place, fde), b) =>
      return if fde.length = 0 then b else b.push module area place fde

def walkFrom (area : Section) (endian : Endian) : (fuel offset : Nat) → Except Trap Walk
  | 0, _ => return ⟨[], none⟩
  | fuel + 1, offset => do
    match ← (header area endian offset).run with
    | .error fault => return ⟨[], some (offset, fault)⟩
    | .ok none => return ⟨[], none⟩
    | .ok (some header) =>
      let rest ← walkFrom area endian fuel header.next
      return { rest with headers := header :: rest.headers }

def walk (area : Section) (endian : Endian) : Except Trap Walk :=
  walkFrom area endian (area.data.length + 1) 0

def scan (module : LoadedModule) (b : Builder) (area : Section) : Except Trap Builder := do
  let walk ← walk area module.layout.endian
  let b ← walk.headers.foldlM (visit module area) { b with tried := [] }
  match walk.stopped with
  | none => return b
  | some (offset, fault) => drop b (.scanStopped module.name area.kind offset fault)

structure Index where
  name : String
  cies : Array Cie
  entries : Array IndexEntry
  /-- The highest end of the entries up to each place. -/
  reaches : Array UInt64
  dropped : Nat

def reachesFrom (reach : UInt64) : List IndexEntry → List UInt64
  | [] => []
  | e :: rest => max reach e.high :: reachesFrom (max reach e.high) rest

def index (module : LoadedModule) : Except Trap (Index × List Warning) := do
  let built ← module.sections.foldlM (scan module) {}
  let entries := sortEntries built.entries
  return ({ name := module.name
            cies := built.cies
            entries := entries.toArray
            reaches := (reachesFrom 0 entries).toArray
            dropped := built.dropped }, built.warnings)

/-! Looking up. -/

def searchBelow (index : Index) (pc : UInt64) :
    (count : Nat) → Option IndexEntry → Except Trap (Option IndexEntry)
  | 0, best => return best
  | i + 1, best => do
    let reach ← inside index.reaches[i]?
    if reach ≤ pc then return best
    else
      let e ← inside index.entries[i]?
      searchBelow index pc i (if pc < e.high then later e best else best)

def find (index : Index) (pc : UInt64) : Except Trap (Option CfiEntry) := do
  let count := partitionPoint (·.low ≤ pc) index.entries
  match ← searchBelow index pc count none with
  | none => return none
  | some e =>
    let cie ← inside index.cies[e.cie]?
    return some {
      cie, fde := e.fde, kind := e.kind, bias := e.low - e.fde.start
      endian := e.endian, bases := e.bases }

end Checked

def CfiIndex.apart (index : CfiIndex) : Checked.Index where
  name := index.name
  cies := index.cies
  entries := index.places.map (·.item)
  reaches := index.places.map (·.reach)
  dropped := index.dropped

/-! Reading a section. -/
section Reading

theorem value_checked {size : Nat} {checked : CheckedM α} {read : ReadM α}
    (agrees : Agrees size checked read) {cursor : Cursor} (within : cursor.Within size) :
    (checked.value cursor).run = .ok (read.value cursor) := by
  obtain ⟨same, -⟩ := agrees cursor within
  rw [CheckedM.value, ReadM.value, CheckedE.run_operation same]
  rcases (read.run cursor) with ⟨fault | value, rest⟩ <;> rfl

variable {area : Section} (small : area.data.length < 2 ^ 28)

theorem header_within {endian : Endian} {offset : Nat} {header : EntryHeader}
    (found : area.header endian offset = .ok (some header)) : header.body.Within area.data.length := by
  obtain ⟨wide, length, -, -, inside, room, rfl⟩ := header_some area endian offset header found
  simp only [Cursor.Within, Section.headerAt, List.length_drop, List.length_take]
  omega

include small

theorem header_checked (endian : Endian) (offset : Nat) :
    (Checked.header area endian offset).run = .ok (area.header endian offset) := by
  unfold Checked.header Section.header
  by_cases outside : area.data.length < offset
  · rw [if_pos outside, if_pos outside]
    rfl
  · have inside := Nat.le_of_not_lt outside
    have within : Cursor.Within area.data.length ⟨area.data.drop offset, offset, endian⟩ := by
      simp only [Cursor.Within, List.length_drop]
      omega
    rw [if_neg outside, if_neg outside, CheckedE.run_operation (split_ok inside)]
    exact value_checked (header_agrees small area.kind) within

theorem common_entry_checked (layout : Layout) (offset : Nat) :
    (Checked.commonEntry area layout offset).run = .ok (area.cie layout offset) := by
  apply CheckedE.run_bind (header_checked small layout.endian offset)
  intro next found
  cases next with
  | none => rfl
  | some header =>
      dsimp only
      unfold Checked.headerCie EntryHeader.cie
      split
      · exact value_checked (cie_agrees small _ _ _) (header_within found)
      · rfl

theorem fde_checked {header : EntryHeader} (within : header.body.Within area.data.length) (cie : Cie)
    (layout : Layout) :
    (Checked.headerFde header cie area layout).run = .ok (header.fde cie area layout) :=
  value_checked (fde_agrees small _ _ _) within

theorem walk_from_checked (endian : Endian) (fuel offset : Nat) :
    Checked.walkFrom area endian fuel offset = .ok (area.walkFrom endian fuel offset) := by
  induction fuel generalizing offset with
  | zero => rfl
  | succ fuel ih =>
      rw [Checked.walkFrom, Section.walkFrom, after_ok (header_checked small endian offset)]
      cases area.header endian offset with
      | error fault => rfl
      | ok next =>
          cases next with
          | none => rfl
          | some header =>
              dsimp only
              rw [after_ok (ih header.next)]
              rfl

end Reading

/-! Building. -/
section Building

variable (module : LoadedModule) (area : Section)

theorem drop_checked (b : Builder) (warning : Warning) (room : b.dropped + 1 < Checked.wordLimit) :
    Checked.drop b warning = .ok (b.drop warning) := by
  rw [Checked.drop, after_ok (sum_ok room)]
  rfl

theorem cie_dropped (offset : Nat) (b : Builder) :
    (b.cie module area offset).2.dropped ≤ b.dropped + 1 := by
  unfold Builder.cie
  split
  · exact Nat.le_succ _
  · split
    · exact Nat.le_succ _
    · exact Nat.le_refl _

theorem function_dropped (header : EntryHeader) (b : Builder) :
    (b.function module area header).2.dropped ≤ b.dropped + 1 := by
  unfold Builder.function
  cases header.cieOffset area.kind with
  | error fault => exact Nat.le_succ _
  | ok offset =>
      have counted := cie_dropped module area offset b
      dsimp only
      split <;> exact counted

/-- A header costs its function at most, and a common entry. -/
theorem visit_dropped (b : Builder) (header : EntryHeader) :
    (b.visit module area header).dropped ≤ b.dropped + 2 := by
  unfold Builder.visit
  split
  · exact Nat.le_succ_of_le (cie_dropped module area header.offset b)
  · have counted := function_dropped module area header b
    generalize b.function module area header = result at counted ⊢
    rcases result with ⟨fault | ⟨place, fde⟩, after⟩
    · exact Nat.succ_le_succ counted
    · dsimp only at counted ⊢
      split <;> exact Nat.le_succ_of_le counted

theorem headers_dropped (headers : List EntryHeader) (b : Builder) :
    (headers.foldl (Builder.visit module area) b).dropped ≤ b.dropped + 2 * headers.length := by
  induction headers generalizing b with
  | nil => exact Nat.le_refl _
  | cons header rest ih =>
      have first := visit_dropped module area b header
      have others := ih (b.visit module area header)
      rw [List.foldl_cons, List.length_cons]
      omega

theorem walk_from_short (endian : Endian) (fuel offset : Nat) :
    (area.walkFrom endian fuel offset).headers.length ≤ fuel := by
  induction fuel generalizing offset with
  | zero => exact Nat.le_refl _
  | succ fuel ih =>
      unfold Section.walkFrom
      split
      · exact Nat.zero_le _
      · exact Nat.zero_le _
      · exact Nat.succ_le_succ (ih _)

theorem scan_dropped (b : Builder) :
    (b.scan module area).dropped ≤ b.dropped + 2 * (area.data.length + 1) + 1 := by
  have visited := headers_dropped module area (area.walk module.layout.endian).headers
    { b with tried := [] }
  have short : (area.walk module.layout.endian).headers.length ≤ area.data.length + 1 :=
    walk_from_short area _ _ 0
  unfold Builder.scan
  dsimp only at visited ⊢
  split
  · omega
  · simp only [Builder.drop]
    omega

variable {module : LoadedModule} {area : Section} (small : area.data.length < 2 ^ 28)

include small

theorem cie_checked (offset : Nat) {b : Builder} (room : b.dropped + 1 < Checked.wordLimit) :
    Checked.cie module area offset b = .ok (b.cie module area offset) := by
  unfold Checked.cie Builder.cie
  cases b.tried.lookup offset with
  | some known => rfl
  | none =>
      dsimp only
      rw [after_ok (common_entry_checked small module.layout offset)]
      cases area.cie module.layout offset with
      | ok cie =>
          dsimp only
          rw [after_ok (difference_ok (by simp : 1 ≤ (b.cies.push cie).size)), Array.size_push]
          rfl
      | error fault =>
          dsimp only
          rw [after_ok (drop_checked { b with tried := (offset, none) :: b.tried } _ room)]
          rfl

theorem function_checked {tries : List Nat} {header : EntryHeader} {b : Builder}
    (memo : b.Memo module area tries) (within : header.body.Within area.data.length)
    (room : b.dropped + 1 < Checked.wordLimit) :
    Checked.function module area header b = .ok (b.function module area header) := by
  unfold Checked.function Builder.function
  cases header.cieOffset area.kind with
  | error fault => rfl
  | ok offset =>
      dsimp only
      obtain ⟨answer, -⟩ := cie_looked tries offset b memo
      rw [after_ok (cie_checked small offset room)]
      generalize b.cie module area offset = looked at answer ⊢
      rcases looked with ⟨_ | place, after⟩
      · rfl
      · -- a place that is remembered is one of the list
        obtain ⟨cie, found⟩ : ∃ cie, after.cies[place]? = some cie := by
          cases read : area.cie module.layout offset with
          | error fault =>
              rw [read] at answer
              cases answer
          | ok cie =>
              rw [read] at answer
              obtain ⟨i, same, found⟩ := answer
              cases same
              exact ⟨cie, found⟩
        have present : Checked.inside after.cies[place]? = .ok cie := by
          rw [found]
          rfl
        dsimp only
        rw [after_ok present, after_ok (fde_checked small within cie module.layout)]
        simp only [Option.bind_some, found, Option.map_some]
        rfl

theorem visit_checked {tries : List Nat} {header : EntryHeader} {b : Builder}
    (memo : b.Memo module area tries) (within : header.body.Within area.data.length)
    (room : b.dropped + 2 < Checked.wordLimit) :
    Checked.visit module area b header = .ok (b.visit module area header) := by
  unfold Checked.visit Builder.visit
  split
  · rw [after_ok (cie_checked small header.offset (Nat.lt_of_succ_lt room))]
    rfl
  · have counted := function_dropped module area header b
    rw [after_ok (function_checked small memo within (Nat.lt_of_succ_lt room))]
    generalize b.function module area header = result at counted ⊢
    rcases result with ⟨fault | ⟨place, fde⟩, after⟩
    · dsimp only at counted ⊢
      exact drop_checked after _ (by omega)
    · rfl

theorem headers_checked {functions : List CfiEntry} {lost : Nat} (headers done : List EntryHeader)
    (b : Builder) (scanned : b.Scanned module area functions lost done)
    (within : ∀ header ∈ headers, header.body.Within area.data.length)
    (room : b.dropped + 2 * headers.length < Checked.wordLimit) :
    headers.foldlM (Checked.visit module area) b =
      .ok (headers.foldl (Builder.visit module area) b) := by
  induction headers generalizing done b with
  | nil => rfl
  | cons header rest ih =>
      rw [List.length_cons] at room
      have counted := visit_dropped module area b header
      have first := visit_checked small scanned.memo (within header List.mem_cons_self) (by omega)
      rw [List.foldlM_cons, after_ok first, List.foldl_cons]
      exact ih (done ++ [header]) _ (visit_scanned done header b scanned)
        (fun header member => within header (List.mem_cons_of_mem _ member)) (by omega)

omit small in
theorem walked_within {endian : Endian} {start : Nat} {walk : Walk}
    (walked : area.Walked endian start walk) :
    ∀ header ∈ walk.headers, header.body.Within area.data.length := by
  intro header member
  exact header_within (walked_found walked header member)

theorem scan_checked {functions : List CfiEntry} {b : Builder} (holds : b.Holds functions)
    (room : b.dropped + 2 * (area.data.length + 1) + 1 < Checked.wordLimit) :
    Checked.scan module b area = .ok (b.scan module area) := by
  have walk : Checked.walk area module.layout.endian = .ok (area.walk module.layout.endian) :=
    walk_from_checked small module.layout.endian _ 0
  have short : (area.walk module.layout.endian).headers.length ≤ area.data.length + 1 :=
    walk_from_short area _ _ 0
  have visited := headers_dropped module area (area.walk module.layout.endian).headers
    { b with tried := [] }
  have headers := headers_checked small (area.walk module.layout.endian).headers []
    { b with tried := [] } (section_scanned module area b holds rfl)
    (walked_within (walk_walked area module.layout.endian)) (by dsimp only; omega)
  unfold Checked.scan Builder.scan
  rw [after_ok walk, after_ok headers]
  dsimp only at visited ⊢
  cases (area.walk module.layout.endian).stopped with
  | none => rfl
  | some stop => exact drop_checked _ _ (by omega)

omit small in
theorem sections_checked {functions : List CfiEntry} (areas : List Section) (b : Builder)
    (holds : b.Holds functions) (small : ∀ area ∈ areas, area.data.length < 2 ^ 28)
    (room : b.dropped + 2 ^ 30 * areas.length < Checked.wordLimit) :
    areas.foldlM (Checked.scan module) b = .ok (areas.foldl (Builder.scan module) b) := by
  induction areas generalizing b functions with
  | nil => rfl
  | cons area rest ih =>
      have short := small area List.mem_cons_self
      have counted := scan_dropped module area b
      rw [List.length_cons] at room
      rw [List.foldlM_cons, after_ok (scan_checked short holds (by omega)), List.foldl_cons]
      exact ih _ (scan_holds area b holds rfl).1
        (fun other member => small other (List.mem_cons_of_mem _ member)) (by omega)

end Building

/-! The index and its search. -/
section Searching

theorem places_from_reaches (reach : UInt64) (entries : List IndexEntry) :
    (placesFrom reach entries).map (·.reach) = Checked.reachesFrom reach entries := by
  induction entries generalizing reach with
  | nil => rfl
  | cons e rest ih => rw [placesFrom, List.map_cons, ih, Checked.reachesFrom]

theorem index_checked (module : LoadedModule)
    (small : ∀ area ∈ module.sections, area.data.length < 2 ^ 28) :
    Checked.index module = .ok (module.index.1.apart, module.index.2) := by
  have two : module.sections.length ≤ 2 := by
    unfold LoadedModule.sections
    cases module.ehFrame <;> cases module.debugFrame <;> simp
  have nothing : ({} : Builder).Holds [] := ⟨.nil, rfl⟩
  have scanned : module.sections.foldlM (Checked.scan module) {} = .ok module.scan :=
    sections_checked module.sections {} nothing small (by unfold Checked.wordLimit; dsimp only; omega)
  rw [Checked.index, after_ok scanned]
  have entries := places_from_items 0 (sortEntries module.scan.entries)
  have reaches := places_from_reaches 0 (sortEntries module.scan.entries)
  simp only [CfiIndex.apart, LoadedModule.index, List.map_toArray, entries, reaches]
  rfl

theorem partition_between_map (p : β → Bool) (change : α → β) (xs : Array α) (lo hi : Nat) :
    partitionBetween p (xs.map change) lo hi = partitionBetween (p ∘ change) xs lo hi := by
  have found (i : Nat) : (xs.map change)[i]?.any p = xs[i]?.any (p ∘ change) := by
    rw [Array.getElem?_map, Option.any_map]
    rfl
  fun_induction partitionBetween (p ∘ change) xs lo hi with
  | case1 lo hi room mid holds ih =>
      rw [partitionBetween, if_pos room, ← ih]
      exact if_pos ((found mid).trans holds)
  | case2 lo hi room mid fails ih =>
      rw [partitionBetween, if_pos room, ← ih]
      exact if_neg (by rwa [found])
  | case3 lo hi full => rw [partitionBetween, if_neg full]

theorem search_checked (index : CfiIndex) (pc : UInt64) (count : Nat) (best : Option IndexEntry)
    (within : count ≤ index.places.size) :
    Checked.searchBelow index.apart pc count best =
      .ok (searchBelow index.places pc count best) := by
  induction count generalizing best with
  | zero => rfl
  | succ i ih =>
      have place : index.places[i]? = some index.places[i] := Array.getElem?_eq_getElem within
      have reach : Checked.inside index.apart.reaches[i]? = .ok index.places[i].reach := by
        simp only [CfiIndex.apart, Array.getElem?_map, place]
        rfl
      have item : Checked.inside index.apart.entries[i]? = .ok index.places[i].item := by
        simp only [CfiIndex.apart, Array.getElem?_map, place]
        rfl
      rw [Checked.searchBelow, searchBelow, after_ok reach, place]
      dsimp only
      split
      · rfl
      rw [after_ok item, ih _ (Nat.le_of_succ_le within)]
      split <;> rfl

theorem find_checked (module : LoadedModule) (pc : UInt64) :
    Checked.find module.index.1.apart pc = .ok (module.index.1.find pc) := by
  have count : partitionPoint (·.low ≤ pc) module.index.1.apart.entries =
      partitionPoint (·.item.low ≤ pc) module.index.1.places := by
    simp only [partitionPoint, CfiIndex.apart, partition_between_map, Array.size_map]
    rfl
  have searched := search_checked module.index.1 pc _ none (partition_point_inside module pc)
  unfold Checked.find CfiIndex.find
  dsimp only
  rw [count, after_ok searched]
  have newest := search_newest module pc
  cases found : searchBelow module.index.1.places pc
      (partitionPoint (·.item.low ≤ pc) module.index.1.places) none with
  | none => rfl
  | some e =>
      -- what is found was indexed, and stands for a function whose common entry is in the list
      rw [found] at newest
      obtain ⟨f, stands⟩ : ∃ f, Stands module.index.1.cies e f := by
        obtain ⟨i, rfl⟩ := List.mem_iff_get.mp (List.mem_of_find?_eq_some newest.symm)
        have stand := (module_holds module).1.entries
        exact ⟨_, stand.get i.isLt (stand.length_eq ▸ i.isLt)⟩
      have common : Checked.inside module.index.1.apart.cies[e.cie]? = .ok f.cie := by
        change Checked.inside module.index.1.cies[e.cie]? = _
        rw [stands.cie]
        rfl
      dsimp only
      rw [after_ok common, Option.bind_some, CfiIndex.entryOf, stands.cie]
      rfl

end Searching

end CallFrame
