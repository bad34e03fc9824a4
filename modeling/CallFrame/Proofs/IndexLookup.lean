import CallFrame.Proofs.IndexScan

/-!
What a lookup finds. The search over the index begins in the middle of a sorted array, walks back and
stops early. Here all functions of all modules are searched, those that count first coming first, and
the two agree.
-/

namespace CallFrame

/-! The order of the places. -/
section Places

/-- What the search relies on: the entries ascend, and a place reaches at least as far as its entry
and the entries before it. -/
structure CfiIndex.Searchable (index : CfiIndex) : Prop where
  ascends : index.places.toList.Pairwise (·.item.low ≤ ·.item.low)
  reach : ∀ place ∈ index.places, place.item.high ≤ place.reach
  bounds : index.places.toList.Pairwise (·.item.high ≤ ·.reach)

theorem insert_entry_descends (e : IndexEntry) (entries : List IndexEntry)
    (descends : entries.Pairwise (·.low ≥ ·.low)) :
    (insertEntry e entries).Pairwise (·.low ≥ ·.low) := by
  fun_induction insertEntry e entries with
  | case1 => exact List.pairwise_singleton _ _
  | case2 first rest before =>
      refine List.pairwise_cons.mpr ⟨fun other member => ?_, descends⟩
      rcases List.mem_cons.mp member with rfl | later
      · exact before
      · exact UInt64.le_trans (List.rel_of_pairwise_cons descends later) before
  | case3 first rest behind ih =>
      refine List.pairwise_cons.mpr ⟨fun other member => ?_, ih descends.of_cons⟩
      rcases List.mem_cons.mp ((insert_entry_perm e rest).subset member) with rfl | later
      · exact UInt64.le_of_lt (UInt64.not_le.mp behind)
      · exact List.rel_of_pairwise_cons descends later

theorem sort_entries_ascends (entries : List IndexEntry) :
    (sortEntries entries).Pairwise (·.low ≤ ·.low) := by
  rw [sortEntries, List.pairwise_reverse]
  induction entries with
  | nil => exact .nil
  | cons e rest ih => exact insert_entry_descends e _ ih

theorem max_bounds (a b : UInt64) : a ≤ max a b ∧ b ≤ max a b := by
  change (a ≤ if a ≤ b then b else a) ∧ b ≤ if a ≤ b then b else a
  split
  next ordered => exact ⟨ordered, UInt64.le_refl b⟩
  next reversed => exact ⟨UInt64.le_refl a, UInt64.le_of_lt (UInt64.not_le.mp reversed)⟩

theorem places_from_reach (reach : UInt64) (entries : List IndexEntry) (place : Place)
    (member : place ∈ placesFrom reach entries) :
    reach ≤ place.reach ∧ place.item.high ≤ place.reach := by
  induction entries generalizing reach with
  | nil => cases member
  | cons e rest ih =>
      rcases List.mem_cons.mp member with rfl | later
      · exact max_bounds reach e.high
      · obtain ⟨grown, bounded⟩ := ih _ later
        exact ⟨UInt64.le_trans (max_bounds reach e.high).1 grown, bounded⟩

-- No entry up to a place ends after what the place reaches.
theorem places_from_bounds (reach : UInt64) (entries : List IndexEntry) :
    (placesFrom reach entries).Pairwise (·.item.high ≤ ·.reach) := by
  induction entries generalizing reach with
  | nil => exact .nil
  | cons e rest ih =>
      refine List.pairwise_cons.mpr ⟨fun place later => ?_, ih _⟩
      exact UInt64.le_trans (max_bounds reach e.high).2 (places_from_reach _ rest place later).1

theorem index_items (module : LoadedModule) :
    module.index.1.places.toList.map (·.item) = sortEntries module.scan.entries :=
  places_from_items 0 _

theorem index_searchable (module : LoadedModule) : module.index.1.Searchable := by
  constructor
  · have ascends := sort_entries_ascends module.scan.entries
    rw [← index_items, List.pairwise_map] at ascends
    exact ascends
  · intro place member
    exact (places_from_reach 0 _ place (List.mem_toArray.mp member)).2
  · exact places_from_bounds 0 _

end Places

/-! The search of one index. -/
section Search

-- Before the point everything satisfies the predicate, and from there on nothing does.
theorem partition_between_exact (p : α → Bool) (xs : Array α) (lo hi : Nat)
    (parted : ∀ i j : Nat, i ≤ j → xs[j]?.any p → xs[i]?.any p) (ordered : lo ≤ hi)
    (before : ∀ i < lo, xs[i]?.any p) (behind : ∀ i : Nat, hi ≤ i → ¬xs[i]?.any p) (i : Nat) :
    xs[i]?.any p ↔ i < partitionBetween p xs lo hi := by
  fun_induction partitionBetween p xs lo hi with
  | case1 lo hi room mid holds ih =>
      refine ih (by omega) (fun j below => ?_) behind
      exact parted j mid (by omega) holds
  | case2 lo hi room mid fails ih =>
      refine ih (by omega) before (fun j above holds => ?_)
      exact fails (parted mid j above holds)
  | case3 lo hi full =>
      constructor
      · intro holds
        by_contra above
        exact behind i (by omega) holds
      · exact before i

def newest (entries : List IndexEntry) (best : Option IndexEntry) : Option IndexEntry :=
  entries.foldr (fun e best => some (later e best)) best

theorem search_below_all (index : CfiIndex) (searchable : index.Searchable) (pc : UInt64)
    (count : Nat) (best : Option IndexEntry) (inside : count ≤ index.places.size) :
    searchBelow index.places pc count best =
      newest (((index.places.toList.take count).map (·.item)).filter (pc < ·.high)) best := by
  induction count generalizing best with
  | zero => rfl
  | succ i ih =>
      have found : index.places[i]? = some index.places[i] := Array.getElem?_eq_getElem inside
      have upTo : index.places.toList.take (i + 1) =
          index.places.toList.take i ++ [index.places[i]] := by
        rw [List.take_add_one, Array.getElem?_toList, found]
        rfl
      simp only [searchBelow, found]
      split
      next cut =>
        -- all ends so far are within reach, and so none of them is after the address
        have hidden : ((index.places.toList.take (i + 1)).map (·.item)).filter (pc < ·.high) = [] := by
          rw [List.filter_eq_nil_iff]
          intro e member
          obtain ⟨place, taken, rfl⟩ := List.mem_map.mp member
          have sofar := searchable.bounds.sublist (List.take_sublist (i + 1) _)
          rw [upTo, List.pairwise_append] at sofar
          rw [upTo, List.mem_append, List.mem_singleton] at taken
          have ended : place.item.high ≤ pc := by
            rcases taken with older | rfl
            · exact UInt64.le_trans (sofar.2.2 place older _ List.mem_cons_self) cut
            · exact UInt64.le_trans (searchable.reach _ (Array.getElem_mem _)) cut
          simpa using UInt64.not_lt.mpr ended
        rw [hidden]
        rfl
      next within =>
        split
        next covering =>
          rw [ih _ (by omega), upTo]
          simp [newest, covering]
        next beyond =>
          rw [ih _ (by omega), upTo]
          simp [newest, beyond]

theorem partition_point_exact (index : CfiIndex) (searchable : index.Searchable) (pc : UInt64)
    (i : Nat) :
    index.places[i]?.any (·.item.low ≤ pc) ↔
      i < partitionPoint (·.item.low ≤ pc) index.places := by
  apply partition_between_exact
  · intro i j ordered begun
    rcases Nat.lt_or_eq_of_le ordered with before | rfl
    · have room : j < index.places.size := by
        by_contra outside
        rw [Array.getElem?_eq_none (by omega)] at begun
        cases begun
      rw [Array.getElem?_eq_getElem room, Option.any_some, decide_eq_true_eq] at begun
      rw [Array.getElem?_eq_getElem (by omega), Option.any_some, decide_eq_true_eq]
      have lower := List.pairwise_iff_getElem.mp searchable.ascends i j (by simp; omega)
        (by simpa using room) before
      exact UInt64.le_trans lower begun
    · exact begun
  · exact Nat.zero_le _
  · intro j below
    omega
  · intro j outside
    rw [Array.getElem?_eq_none outside]
    exact Bool.false_ne_true

-- Only places before the point can cover the address, and of these all that end after it do.
theorem covering_before (places : Array Place) (pc : UInt64) (count : Nat)
    (exact : ∀ i : Nat, places[i]?.any (·.item.low ≤ pc) ↔ i < count) :
    (places.toList.map (·.item)).filter (·.covers pc) =
      ((places.toList.take count).map (·.item)).filter (pc < ·.high) := by
  have split : places.toList.map (·.item) =
      (places.toList.take count).map (·.item) ++ (places.toList.drop count).map (·.item) := by
    rw [← List.map_append, List.take_append_drop]
  have behind : ((places.toList.drop count).map (·.item)).filter (·.covers pc) = [] := by
    rw [List.filter_eq_nil_iff]
    intro e member
    obtain ⟨place, dropped, rfl⟩ := List.mem_map.mp member
    obtain ⟨i, inside, rfl⟩ := List.mem_drop_iff_getElem.mp dropped
    have above := mt (exact (count + i)).mp (by omega)
    rw [← Array.getElem?_toList, List.getElem?_eq_getElem (by omega)] at above
    simp only [IndexEntry.covers, Bool.and_eq_true, not_and]
    intro begun
    exact absurd begun above
  rw [split, List.filter_append, behind, List.append_nil]
  apply List.filter_congr
  intro e member
  obtain ⟨place, taken, rfl⟩ := List.mem_map.mp member
  obtain ⟨i, inside, rfl⟩ := List.mem_take_iff_getElem.mp taken
  have below := (exact i).mpr (by omega)
  rw [← Array.getElem?_toList, List.getElem?_eq_getElem (by omega)] at below
  simp only [Option.any_some] at below
  simp only [IndexEntry.covers, below, Bool.true_and]

theorem newest_exact (entries : List IndexEntry) :
    match newest entries none with
    | none => entries = []
    | some e => e ∈ entries ∧ ∀ other ∈ entries, other.seq ≤ e.seq := by
  induction entries with
  | nil => rfl
  | cons e rest ih =>
      have first : newest (e :: rest) none = some (later e (newest rest none)) := rfl
      rw [first]
      cases found : newest rest none with
      | none =>
          rw [found] at ih
          simp [ih, later]
      | some best =>
          rw [found] at ih
          obtain ⟨member, greatest⟩ := ih
          simp only [later]
          split
          next newer =>
            refine ⟨List.mem_cons_self, fun other inside => ?_⟩
            rcases List.mem_cons.mp inside with rfl | older
            · exact Nat.le_refl _
            · exact Nat.le_trans (greatest other older) (Nat.le_of_lt newer)
          next older =>
            refine ⟨List.mem_cons_of_mem e member, fun other inside => ?_⟩
            rcases List.mem_cons.mp inside with rfl | old
            · exact Nat.not_lt.mp older
            · exact greatest other old

-- In a list that begins with the newest entry, the newest one of a kind is the first one.
theorem newest_first (items entries : List IndexEntry) (p : IndexEntry → Bool)
    (same : items.Perm entries) (numbered : entries.Pairwise (·.seq > ·.seq)) :
    newest (items.filter p) none = entries.find? p := by
  have exact := newest_exact (items.filter p)
  cases found : newest (items.filter p) none with
  | none =>
      rw [found] at exact
      symm
      rw [List.find?_eq_none]
      intro e member
      exact List.filter_eq_nil_iff.mp exact e (same.symm.subset member)
  | some e =>
      rw [found] at exact
      obtain ⟨kept, greatest⟩ := exact
      obtain ⟨member, holds⟩ := List.mem_filter.mp kept
      cases searched : entries.find? p with
      | none => exact absurd holds (List.find?_eq_none.mp searched e (same.subset member))
      | some first =>
          obtain ⟨firstHolds, newer, older, split, unmet⟩ :=
            List.find?_eq_some_iff_append.mp searched
          have bound := greatest first (List.mem_filter.mpr
            ⟨same.symm.subset (List.mem_of_find?_eq_some searched), firstHolds⟩)
          have place := same.subset member
          -- `e` is as new as `first`, so it cannot stand behind it, and before it nothing is kept
          rw [split] at place numbered
          rcases List.mem_append.mp place with before | here
          · exact absurd (unmet e before) (by simp [holds])
          rcases List.mem_cons.mp here with rfl | behind
          · rfl
          · have smaller := List.rel_of_pairwise_cons (List.pairwise_append.mp numbered).2.1 behind
            omega

theorem partition_point_inside (module : LoadedModule) (pc : UInt64) :
    partitionPoint (·.item.low ≤ pc) module.index.1.places ≤ module.index.1.places.size := by
  by_contra outside
  have last := (partition_point_exact module.index.1 (index_searchable module) pc
    module.index.1.places.size).mpr (by omega)
  rw [Array.getElem?_eq_none (Nat.le_refl _)] at last
  cases last

/-- The search of an index finds the newest of its entries that cover the address. -/
theorem search_newest (module : LoadedModule) (pc : UInt64) :
    searchBelow module.index.1.places pc
        (partitionPoint (·.item.low ≤ pc) module.index.1.places) none =
      module.scan.entries.find? (·.covers pc) := by
  have searchable := index_searchable module
  have exact := partition_point_exact module.index.1 searchable pc
  have numbered : module.scan.entries.Pairwise (·.seq > ·.seq) := by
    rw [← List.pairwise_map, (module_holds module).1.numbered, List.pairwise_reverse]
    exact List.pairwise_lt_range
  have same : (module.index.1.places.toList.map (·.item)).Perm module.scan.entries := by
    rw [index_items]
    exact sort_entries_perm _
  rw [search_below_all _ searchable pc _ none (partition_point_inside module pc),
    ← covering_before _ pc _ exact, newest_first _ _ _ same numbered]

theorem index_find (module : LoadedModule) (pc : UInt64) :
    module.index.1.find pc =
      (module.scan.entries.find? (·.covers pc)).bind module.index.1.entryOf := by
  unfold CfiIndex.find
  rw [← search_newest]

end Search

/-! Where the parts of a function come from. -/
section Origin

theorem read_cie_offset (offset : Nat) (area : Section) (layout : Layout) :
    (readCie offset area layout).Yields (·.offset = offset) := by
  unfold readCie
  refine ReadM.yields_bind _ _ fun version => ?_
  refine ReadM.yields_ite _ _ _ (ReadM.yields_throw _) ?_
  iterate 7 refine ReadM.yields_bind _ _ fun _ => ?_
  exact ReadM.yields_pure _ rfl

theorem read_fde_offset (offset : Nat) (cie : Cie) (bases : PointerBases) :
    (readFde offset cie bases).Yields (·.offset = offset) := by
  unfold readFde
  iterate 4 refine ReadM.yields_bind _ _ fun _ => ?_
  exact ReadM.yields_pure _ rfl

theorem read_fde_cie_offset (offset : Nat) (cie : Cie) (bases : PointerBases) :
    (readFde offset cie bases).Yields (·.cieOffset = cie.offset) := by
  unfold readFde
  iterate 4 refine ReadM.yields_bind _ _ fun _ => ?_
  exact ReadM.yields_pure _ rfl

theorem section_cie_offset (area : Section) (layout : Layout) (offset : Nat) (cie : Cie)
    (read : area.cie layout offset = .ok cie) : cie.offset = offset := by
  obtain ⟨next, found, parsed⟩ := bind_ok read
  cases next with
  | none => cases parsed
  | some header =>
      obtain ⟨same, -⟩ := header_advances area layout.endian offset header found
      simp only [EntryHeader.cie] at parsed
      split at parsed
      · exact (read_cie_offset header.offset area layout _ cie parsed).trans same
      · cases parsed

theorem described_origin (header : EntryHeader) (area : Section) (layout : Layout) (cie : Cie)
    (fde : Fde) (described : header.described area layout = .ok (cie, fde)) :
    area.cie layout fde.cieOffset = .ok cie := by
  obtain ⟨offset, -, rest⟩ := bind_ok described
  obtain ⟨shared, read, rest⟩ := bind_ok rest
  obtain ⟨function, own, rest⟩ := bind_ok rest
  cases rest
  have named := read_fde_cie_offset header.offset cie (area.bases layout) _ fde own
  rw [named, section_cie_offset area layout offset cie read]
  exact read

theorem function_origin (module : LoadedModule) (f : CfiEntry) (member : f ∈ module.functions) :
    f.start = f.fde.start + module.bias ∧
      ∃ area ∈ module.sections, area.kind = f.kind ∧
        area.cie module.layout f.fde.cieOffset = .ok f.cie := by
  obtain ⟨area, inside, header, -, found⟩ := function_read member
  obtain ⟨cie, fde, described, -, rfl⟩ := function_at_some found
  exact ⟨rfl, area, inside, rfl, described_origin header area module.layout cie fde described⟩

end Origin

/-! All functions, searched one by one. -/
section Exhaustive

/-- The addresses of a function's code. Code that would pass the last address ends there. -/
def CfiEntry.Covers (entry : CfiEntry) (pc : UInt64) : Prop :=
  entry.start ≤ pc ∧ pc.toNat < min (entry.start.toNat + entry.fde.length.toNat) (2 ^ 64 - 1)

instance (entry : CfiEntry) (pc : UInt64) : Decidable (entry.Covers pc) :=
  inferInstanceAs (Decidable (_ ∧ _))

theorem saturating_end_exact (low length : UInt64) :
    (saturatingEnd low length).toNat = min (low.toNat + length.toNat) (2 ^ 64 - 1) := by
  simp only [saturatingEnd, Nat.toUInt64, UInt64.toNat_ofNat']
  omega

theorem stands_covers (cies : Array Cie) (e : IndexEntry) (f : CfiEntry) (pc : UInt64)
    (stands : Stands cies e f) : e.covers pc = decide (f.Covers pc) := by
  rw [Bool.eq_iff_iff, decide_eq_true_iff]
  simp only [IndexEntry.covers, stands.low, stands.high, CfiEntry.Covers, UInt64.lt_iff_toNat_lt,
    saturating_end_exact, Bool.and_eq_true, decide_eq_true_eq]

theorem stands_find (index : CfiIndex) (entries : List IndexEntry) (functions : List CfiEntry)
    (pc : UInt64) (stands : List.Forall₂ (Stands index.cies) entries functions) :
    (entries.find? (·.covers pc)).bind index.entryOf = functions.find? (·.Covers pc) := by
  induction stands with
  | nil => rfl
  | @cons e f rest others first tail ih =>
      rw [List.find?_cons, List.find?_cons, stands_covers index.cies e f pc first]
      cases decide (f.Covers pc) with
      | true => exact entry_stands index e f first
      | false => exact ih

/-- An index finds the last of the module's functions that covers the address. -/
theorem module_find (module : LoadedModule) (pc : UInt64) :
    module.index.1.find pc = module.functions.reverse.find? (·.Covers pc) := by
  rw [index_find]
  exact stands_find module.index.1 _ _ pc (module_holds module).1.entries

/-- A change of a table. An index is only ever made of a module. -/
inductive TableChange
  | add (module : LoadedModule)
  | load (module : LoadedModule)
  | unload (name : String)

def CfiTable.change (table : CfiTable) : TableChange → CfiTable
  | .add module => table.add module.index.1
  | .load module => (table.load module).1
  | .unload name => ((table.unload name).map (·.2)).getD table

def tableAfter (changes : List TableChange) : CfiTable :=
  changes.foldl CfiTable.change {}

def modulesLeft (modules : List LoadedModule) : TableChange → List LoadedModule
  | .add module | .load module => module :: modules
  | .unload name => modules.eraseP (·.name = name)

def modulesAfter (changes : List TableChange) : List LoadedModule :=
  changes.foldl modulesLeft []

def CfiTable.Holds (table : CfiTable) (modules : List LoadedModule) : Prop :=
  table.modules.reverse = modules.map (·.index.1)

theorem change_holds (table : CfiTable) (modules : List LoadedModule) (change : TableChange)
    (holds : table.Holds modules) : (table.change change).Holds (modulesLeft modules change) := by
  unfold CfiTable.Holds at holds ⊢
  cases change with
  | add module | load module =>
      simp [CfiTable.change, CfiTable.load, CfiTable.add, modulesLeft, holds]
  | unload name =>
      have named : (fun index : CfiIndex => decide (index.name = name)) ∘
          (fun module : LoadedModule => module.index.1) =
            fun module => decide (module.name = name) := rfl
      simp only [CfiTable.change, CfiTable.unload, modulesLeft, holds, List.find?_map,
        List.eraseP_map, named]
      cases found : modules.find? (·.name = name) with
      | none =>
          rw [List.eraseP_of_forall_not (List.find?_eq_none.mp found)]
          exact holds
      | some module => exact List.reverse_reverse _

theorem changes_hold (changes : List TableChange) (table : CfiTable) (modules : List LoadedModule)
    (holds : table.Holds modules) :
    (changes.foldl CfiTable.change table).Holds (changes.foldl modulesLeft modules) := by
  induction changes generalizing table modules with
  | nil => exact holds
  | cons change rest ih => exact ih _ _ (change_holds table modules change holds)

theorem table_find (changes : List TableChange) (pc : UInt64) :
    (tableAfter changes).find pc =
      ((modulesAfter changes).flatMap (·.functions.reverse)).find? (·.Covers pc) := by
  have holds := changes_hold changes {} [] rfl
  rw [CfiTable.find, show (tableAfter changes).modules.reverse = _ from holds]
  rw [List.findSome?_map, List.find?_flatMap]
  congr 1
  funext module
  exact module_find module pc

theorem load_unload (table : CfiTable) (module : LoadedModule) :
    (table.change (.load module)).change (.unload module.name) = table := by
  have named : module.index.1.name = module.name := rfl
  simp [CfiTable.change, CfiTable.load, CfiTable.add, CfiTable.unload, named]

/-- A lookup finds nothing if no function of a module that is left covers the address. Otherwise it
finds, in the last module that has one, the last function that does, as it is loaded and with the
common entry that it points at. Loading a module and unloading it again changes no table. -/
theorem lookup_exact (changes : List TableChange) (pc : UInt64) :
    ((tableAfter changes).find pc = none ↔
      ∀ module ∈ modulesAfter changes, ∀ f ∈ module.functions, ¬f.Covers pc) ∧
    (∀ entry, (tableAfter changes).find pc = some entry →
      ∃ newer module older earlier later,
        modulesAfter changes = newer ++ module :: older ∧
          module.functions = earlier ++ entry :: later ∧ entry.Covers pc ∧
          (∀ f ∈ later, ¬f.Covers pc) ∧
          (∀ other ∈ newer, ∀ f ∈ other.functions, ¬f.Covers pc) ∧
          entry.start = entry.fde.start + module.bias ∧
          ∃ area ∈ module.sections, area.kind = entry.kind ∧
            area.cie module.layout entry.fde.cieOffset = .ok entry.cie) ∧
    ∀ module, tableAfter (changes ++ [.load module, .unload module.name]) = tableAfter changes := by
  refine ⟨?_, ?_, ?_⟩
  · simp [table_find]
  · intro entry found
    rw [table_find, List.find?_flatMap] at found
    obtain ⟨newer, module, older, split, here, passed⟩ := List.findSome?_eq_some_iff.mp found
    obtain ⟨covers, later, earlier, order, behind⟩ := List.find?_eq_some_iff_append.mp here
    have functions : module.functions = earlier.reverse ++ entry :: later.reverse := by
      rw [← List.reverse_reverse module.functions, order]
      simp
    have member : entry ∈ module.functions := by
      rw [functions]
      exact List.mem_append_right _ List.mem_cons_self
    refine ⟨newer, module, older, earlier.reverse, later.reverse, split, functions,
      of_decide_eq_true covers, ?_, ?_, function_origin module entry member⟩
    · intro f after
      simpa using behind f (List.mem_reverse.mp after)
    · intro other ahead f inside
      simpa using List.find?_eq_none.mp (passed other ahead) f (List.mem_reverse.mpr inside)
  · intro module
    rw [tableAfter, List.foldl_append]
    exact load_unload (tableAfter changes) module

-- Functions of both sections cover the address, and the one of `.debug_frame` is found. An older module
-- that was unloaded is not searched, and behind both functions nothing is found.
theorem lookup_exact_overlapping :
    let changes : List TableChange := [.load { name := "gone" }, .load overlappingSections, .unload "gone"]
    (overlappingSections.functions.map fun f => (f.kind, decide (f.Covers 0x10c0))) =
        [(.ehFrame, true), (.debugFrame, true)] ∧
      (∃ entry earlier, (tableAfter changes).find 0x10c0 = some entry ∧ entry.kind = .debugFrame ∧
        overlappingSections.functions = earlier ++ [entry] ∧
        ∃ area, overlappingSections.debugFrame = some area ∧ area.cie {} entry.fde.cieOffset = .ok entry.cie) ∧
      (tableAfter changes).find 0x1180 = none ∧
      tableAfter (changes ++ [.load overlappingSections, .unload "m"]) = tableAfter changes := by
  intro changes
  have left : modulesAfter changes = [overlappingSections] := rfl
  have kinds : overlappingSections.functions.map (·.kind) = [.ehFrame, .debugFrame] := by decide +kernel
  refine ⟨by decide +kernel, ?_, ?_, (lookup_exact changes 0x10c0).2.2 overlappingSections⟩
  · have kind : ((tableAfter changes).find 0x10c0).map (·.kind) = some .debugFrame := by decide +kernel
    obtain ⟨entry, found, debugFrame⟩ := Option.map_eq_some_iff.mp kind
    obtain ⟨newer, module, older, earlier, later, alone, functions, -, -, -, -, area, member, same, cie⟩ :=
      (lookup_exact changes 0x10c0).2.1 entry found
    obtain ⟨rfl, rfl, rfl⟩ : newer = [] ∧ module = overlappingSections ∧ older = [] := by
      simpa [List.append_eq_singleton_iff, left, eq_comm] using alone
    have last : later = [] := by
      rw [functions, List.map_append, List.map_cons, debugFrame] at kinds
      rcases earlier with _ | ⟨first, _ | ⟨second, rest⟩⟩ <;> simp at kinds
      exact kinds.2
    refine ⟨entry, earlier, found, debugFrame, last ▸ functions, area, ?_, cie⟩
    rw [debugFrame] at same
    rcases List.mem_pair.mp member with rfl | rfl
    · cases same
    · rfl
  · refine (lookup_exact changes 0x1180).1.mpr ?_
    have apart : overlappingSections.functions.all (fun f => !f.Covers 0x1180) = true := by decide +kernel
    rw [left]
    simpa using apart

end Exhaustive

end CallFrame
