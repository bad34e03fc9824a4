import CallFrame.Index.Search
import CallFrame.Proofs.SectionWalk
import Mathlib.Data.Finset.Card
import Mathlib.Data.Finset.Dedup

/-!
What indexing a module comes to. The builder remembers the common entries of a section by offset, and
keeps the entries of both sections in one list of places. Here every function is read afresh, with its
common entry, and nothing is remembered. The index holds just these functions, in this order, and
counts as lost just what could not be read.
-/

namespace CallFrame

/-! Reading without memory. -/
section Afresh

/-- A function and the common entry that it points at, both read for this header alone. -/
def EntryHeader.described (header : EntryHeader) (area : Section) (layout : Layout) :
    Except Fault (Cie × Fde) := do
  let offset ← header.cieOffset area.kind
  let cie ← area.cie layout offset
  let fde ← header.fde cie area layout
  return (cie, fde)

def EntryHeader.tries (header : EntryHeader) (kind : SectionKind) : Option Nat :=
  if header.isCie kind then some header.offset else (header.cieOffset kind).toOption

variable (module : LoadedModule) (area : Section)

def LoadedModule.loaded (cie : Cie) (fde : Fde) : CfiEntry where
  cie := cie
  fde := fde
  kind := area.kind
  bias := module.bias
  endian := module.layout.endian
  bases := { area.bases module.layout with function := some fde.start }

def LoadedModule.functionAt (header : EntryHeader) : Option CfiEntry :=
  if header.isCie area.kind then none
  else match header.described area module.layout with
    | .ok (cie, fde) => if fde.length = 0 then none else some (module.loaded area cie fde)
    | .error _ => none

def LoadedModule.functionsOf : List CfiEntry :=
  (area.walk module.layout.endian).headers.filterMap (module.functionAt area)

/-- The functions of a module: those of `.eh_frame`, then those of `.debug_frame`. -/
def LoadedModule.functions : List CfiEntry :=
  module.ehFrame.elim [] module.functionsOf ++ module.debugFrame.elim [] module.functionsOf

/-- How many of the offsets, each counted once, hold no common entry. -/
def Section.lostOffsets (layout : Layout) (tries : List Nat) : Nat :=
  (tries.toFinset.filter fun offset => (area.cie layout offset).toOption.isNone).card

def Section.lostCies (layout : Layout) (headers : List EntryHeader) : Nat :=
  area.lostOffsets layout (headers.filterMap (·.tries area.kind))

def Section.lostFunctions (layout : Layout) (headers : List EntryHeader) : Nat :=
  headers.countP fun header =>
    !header.isCie area.kind && (header.described area layout).toOption.isNone

/-- What is lost of a section: the rest behind a walk that stops early, common entries, functions. -/
def LoadedModule.lossOf : Nat :=
  let walk := area.walk module.layout.endian
  walk.stopped.toList.length + area.lostCies module.layout walk.headers +
    area.lostFunctions module.layout walk.headers

def LoadedModule.losses : Nat :=
  module.ehFrame.elim 0 module.lossOf + module.debugFrame.elim 0 module.lossOf

-- The builder goes through a list of the sections that there are.
theorem functions_sections : module.functions = module.sections.flatMap module.functionsOf := by
  unfold LoadedModule.functions LoadedModule.sections
  rcases module.ehFrame with _ | ehFrame <;> rcases module.debugFrame with _ | debugFrame <;> simp

theorem losses_sections : module.losses = (module.sections.map module.lossOf).sum := by
  unfold LoadedModule.losses LoadedModule.sections
  rcases module.ehFrame with _ | ehFrame <;> rcases module.debugFrame with _ | debugFrame <;> simp

variable {module area}

theorem function_at_some {header : EntryHeader} {f : CfiEntry}
    (found : module.functionAt area header = some f) :
    ∃ cie fde, header.described area module.layout = .ok (cie, fde) ∧ fde.length ≠ 0 ∧
      f = module.loaded area cie fde := by
  unfold LoadedModule.functionAt at found
  split at found
  · cases found
  split at found
  next cie fde described =>
    split at found
    · cases found
    next code =>
      cases found
      exact ⟨cie, fde, described, code, rfl⟩
  next => cases found

theorem function_read {f : CfiEntry} (member : f ∈ module.functions) :
    ∃ area ∈ module.sections, ∃ header ∈ (area.walk module.layout.endian).headers,
      module.functionAt area header = some f := by
  rw [functions_sections] at member
  obtain ⟨area, inside, found⟩ := List.mem_flatMap.mp member
  exact ⟨area, inside, List.mem_filterMap.mp found⟩

end Afresh

/-! The memory of common entries. -/
section Memory

variable {module : LoadedModule} {area : Section}

def Remembers (cies : Array Cie) (place : Option Nat) : Except Fault Cie → Prop
  | .ok cie => ∃ i, place = some i ∧ cies[i]? = some cie
  | .error _ => place = none

-- Places of the list of common entries stay what they are.
def Extends (before after : Array Cie) : Prop :=
  ∀ (place : Nat) (cie : Cie), before[place]? = some cie → after[place]? = some cie

theorem extends_refl (cies : Array Cie) : Extends cies cies := by
  intro place cie found
  exact found

theorem extends_push (cies : Array Cie) (cie : Cie) : Extends cies (cies.push cie) := by
  intro place known found
  obtain ⟨inside, rfl⟩ := Array.getElem?_eq_some_iff.mp found
  exact Array.getElem?_push_lt inside

theorem remembers_extend {before after : Array Cie} (grown : Extends before after)
    (place : Option Nat) (result : Except Fault Cie) (known : Remembers before place result) :
    Remembers after place result := by
  cases result with
  | error fault => exact known
  | ok cie =>
      obtain ⟨i, same, found⟩ := known
      exact ⟨i, same, grown i cie found⟩

/-- The memory covers the offsets tried so far, and holds for each what a fresh read yields. -/
structure Builder.Memo (module : LoadedModule) (area : Section) (tries : List Nat)
    (b : Builder) : Prop where
  covers : ∀ offset, offset ∈ b.tried.map Prod.fst ↔ offset ∈ tries
  agrees : ∀ offset place, (offset, place) ∈ b.tried →
    Remembers b.cies place (area.cie module.layout offset)

theorem lost_offsets_known (layout : Layout) (tries : List Nat) (offset : Nat)
    (known : offset ∈ tries) :
    area.lostOffsets layout (tries ++ [offset]) = area.lostOffsets layout tries := by
  have same : (tries ++ [offset]).toFinset = tries.toFinset := by
    ext other
    simp only [List.mem_toFinset, List.mem_append, List.mem_singleton, or_iff_left_iff_imp]
    rintro rfl
    exact known
  rw [Section.lostOffsets, same, Section.lostOffsets]

theorem lost_offsets_ok (layout : Layout) (tries : List Nat) (offset : Nat) (cie : Cie)
    (read : area.cie layout offset = .ok cie) :
    area.lostOffsets layout (tries ++ [offset]) = area.lostOffsets layout tries := by
  unfold Section.lostOffsets
  congr 1
  ext other
  simp only [List.toFinset_append, Finset.mem_filter, Finset.mem_union, List.mem_toFinset,
    List.mem_singleton]
  constructor
  · rintro ⟨member | rfl, lost⟩
    · exact ⟨member, lost⟩
    · rw [read] at lost
      cases lost
  · rintro ⟨member, lost⟩
    exact ⟨.inl member, lost⟩

theorem lost_offsets_error (layout : Layout) (tries : List Nat) (offset : Nat) (fault : Fault)
    (fresh : offset ∉ tries) (read : area.cie layout offset = .error fault) :
    area.lostOffsets layout (tries ++ [offset]) = area.lostOffsets layout tries + 1 := by
  unfold Section.lostOffsets
  have lost : (area.cie layout offset).toOption.isNone = true := by rw [read]; rfl
  have grown : (tries ++ [offset]).toFinset = insert offset tries.toFinset := by
    ext other
    simp
  rw [grown, Finset.filter_insert, if_pos lost, Finset.card_insert_of_notMem]
  simp [fresh]

/-- What is left of a builder once the offsets `more` were looked up besides `tries`. -/
structure Builder.Looked (module : LoadedModule) (area : Section) (tries more : List Nat)
    (before after : Builder) : Prop where
  memo : after.Memo module area (tries ++ more)
  grown : Extends before.cies after.cies
  entries : after.entries = before.entries
  dropped : after.dropped + area.lostOffsets module.layout tries =
    before.dropped + area.lostOffsets module.layout (tries ++ more)

theorem looked_nothing (tries : List Nat) (b : Builder) (memo : b.Memo module area tries) :
    Builder.Looked module area tries [] b b := by
  rw [← List.append_nil tries] at memo
  exact ⟨memo, extends_refl b.cies, rfl, by rw [List.append_nil]⟩

theorem memo_cons (tries : List Nat) (offset : Nat) (place : Option Nat) (before after : Builder)
    (memo : before.Memo module area tries) (grown : Extends before.cies after.cies)
    (tried : after.tried = (offset, place) :: before.tried)
    (answer : Remembers after.cies place (area.cie module.layout offset)) :
    after.Memo module area (tries ++ [offset]) := by
  constructor
  · intro other
    rw [tried, List.map_cons, List.mem_cons, memo.covers, List.mem_append, List.mem_singleton,
      or_comm]
  · intro other known member
    rw [tried] at member
    rcases List.mem_cons.mp member with same | old
    · cases same
      exact answer
    · exact remembers_extend grown known _ (memo.agrees other known old)

theorem cie_looked (tries : List Nat) (offset : Nat) (b : Builder)
    (memo : b.Memo module area tries) :
    Remembers (b.cie module area offset).2.cies (b.cie module area offset).1
        (area.cie module.layout offset) ∧
      Builder.Looked module area tries [offset] b (b.cie module area offset).2 := by
  unfold Builder.cie
  cases found : b.tried.lookup offset with
  | some place =>
      -- tried before: nothing is read and nothing counts anew
      obtain ⟨older, newer, split, -⟩ := List.lookup_eq_some_iff.mp found
      have member : (offset, place) ∈ b.tried := by
        rw [split]
        exact List.mem_append_right _ List.mem_cons_self
      have known : offset ∈ tries := (memo.covers offset).mp (List.mem_map_of_mem member)
      refine ⟨memo.agrees offset place member, ⟨fun other => ?_, memo.agrees⟩,
        extends_refl b.cies, rfl, ?_⟩
      · rw [memo.covers, List.mem_append, List.mem_singleton, or_iff_left_of_imp]
        rintro rfl
        exact known
      · simp only [lost_offsets_known module.layout tries offset known]
  | none =>
      have fresh : offset ∉ tries := by
        intro known
        obtain ⟨⟨other, place⟩, member, rfl⟩ := List.mem_map.mp ((memo.covers offset).mpr known)
        exact absurd (List.lookup_eq_none_iff.mp found _ member) (by simp)
      cases read : area.cie module.layout offset with
      | ok cie =>
          have grown := extends_push b.cies cie
          have answer : Remembers (b.cies.push cie) (some b.cies.size) (.ok cie) :=
            ⟨b.cies.size, rfl, Array.getElem?_push_size⟩
          refine ⟨answer, memo_cons tries offset _ b _ memo grown rfl ?_, grown, rfl, ?_⟩
          · rw [read]
            exact answer
          · simp only [lost_offsets_ok module.layout tries offset cie read]
      | error fault =>
          have grown := extends_refl b.cies
          have answer : Remembers b.cies none (.error fault) := rfl
          refine ⟨answer, memo_cons tries offset none b _ memo grown rfl ?_, grown, rfl, ?_⟩
          · rw [read]
            exact answer
          · rw [lost_offsets_error module.layout tries offset fault fresh read]
            simp only [Builder.drop]
            omega

def Describes (cies : Array Cie) (answer : Except Fault (Nat × Fde)) :
    Except Fault (Cie × Fde) → Prop
  | .ok (cie, fde) => ∃ place, answer = .ok (place, fde) ∧ cies[place]? = some cie
  | .error _ => ∃ fault, answer = .error fault

theorem function_looked (tries : List Nat) (header : EntryHeader) (b : Builder)
    (memo : b.Memo module area tries) (function : header.isCie area.kind = false) :
    Describes (b.function module area header).2.cies (b.function module area header).1
        (header.described area module.layout) ∧
      Builder.Looked module area tries (header.tries area.kind).toList b
        (b.function module area header).2 := by
  unfold Builder.function EntryHeader.described EntryHeader.tries
  rw [function]
  cases header.cieOffset area.kind with
  | error fault => exact ⟨⟨fault, rfl⟩, looked_nothing tries b memo⟩
  | ok offset =>
      obtain ⟨answer, looked⟩ := cie_looked tries offset b memo
      simp only [bind, Except.bind]
      generalize b.cie module area offset = result at answer looked ⊢
      rcases result with ⟨place, after⟩
      simp only at answer looked ⊢
      cases read : area.cie module.layout offset with
      | error fault =>
          rw [read] at answer
          cases answer
          exact ⟨⟨_, rfl⟩, looked⟩
      | ok cie =>
          rw [read] at answer
          obtain ⟨i, rfl, found⟩ := answer
          simp only [Option.bind_some, found, Option.map_some]
          refine ⟨?_, looked⟩
          cases header.fde cie area module.layout with
          | error fault => exact ⟨fault, rfl⟩
          | ok fde => exact ⟨i, rfl, found⟩

end Memory

/-! The scan of the sections. -/
section Scan

variable {module : LoadedModule} {area : Section}

structure Stands (cies : Array Cie) (e : IndexEntry) (f : CfiEntry) : Prop where
  cie : cies[e.cie]? = some f.cie
  fde : e.fde = f.fde
  kind : e.kind = f.kind
  endian : e.endian = f.endian
  bases : e.bases = f.bases
  low : e.low = f.start
  high : e.high = saturatingEnd f.start f.fde.length

-- The entries stand for the functions and are numbered in their order.
structure Builder.Holds (functions : List CfiEntry) (b : Builder) : Prop where
  entries : List.Forall₂ (Stands b.cies) b.entries functions.reverse
  numbered : b.entries.map (·.seq) = (List.range b.entries.length).reverse

theorem holds_extend (functions : List CfiEntry) (before after : Builder)
    (same : after.entries = before.entries) (grown : Extends before.cies after.cies)
    (holds : before.Holds functions) : after.Holds functions := by
  constructor
  · rw [same]
    exact holds.entries.imp fun e f stands => { stands with cie := grown _ _ stands.cie }
  · rw [same]
    exact holds.numbered

theorem holds_drop (functions : List CfiEntry) (b : Builder) (warning : Warning)
    (holds : b.Holds functions) : (b.drop warning).Holds functions :=
  holds_extend functions b _ rfl (extends_refl b.cies) holds

theorem holds_push (functions : List CfiEntry) (b : Builder) (place : Nat) (cie : Cie) (fde : Fde)
    (found : b.cies[place]? = some cie) (holds : b.Holds functions) :
    (b.push module area place fde).Holds (functions ++ [module.loaded area cie fde]) := by
  constructor
  · rw [List.reverse_append]
    exact .cons ⟨found, rfl, rfl, rfl, rfl, rfl, rfl⟩ holds.entries
  · simp only [Builder.push, List.map_cons, List.length_cons, List.range_succ, List.reverse_append,
      List.reverse_singleton, List.singleton_append, holds.numbered]

/-- What holds in the midst of a section: `functions` and `lost` are from before it, and the headers
in `done` have been visited. -/
structure Builder.Scanned (module : LoadedModule) (area : Section) (functions : List CfiEntry)
    (lost : Nat) (done : List EntryHeader) (b : Builder) : Prop where
  memo : b.Memo module area (done.filterMap (·.tries area.kind))
  holds : b.Holds (functions ++ done.filterMap (module.functionAt area))
  dropped : b.dropped =
    lost + area.lostCies module.layout done + area.lostFunctions module.layout done

variable {functions : List CfiEntry} {lost : Nat}

-- Looking up what a header names accounts for the common entry. The function is still to come.
theorem looked_scanned (done : List EntryHeader) (header : EntryHeader) (b after : Builder)
    (scanned : b.Scanned module area functions lost done)
    (looked : Builder.Looked module area (done.filterMap (·.tries area.kind))
      (header.tries area.kind).toList b after) :
    after.Memo module area ((done ++ [header]).filterMap (·.tries area.kind)) ∧
      after.Holds (functions ++ done.filterMap (module.functionAt area)) ∧
      after.dropped = lost + area.lostCies module.layout (done ++ [header]) +
        area.lostFunctions module.layout done := by
  have tries : (done ++ [header]).filterMap (·.tries area.kind) =
      done.filterMap (·.tries area.kind) ++ (header.tries area.kind).toList := by
    cases named : header.tries area.kind <;> simp [named]
  have counted := looked.dropped
  rw [scanned.dropped] at counted
  unfold Section.lostCies at counted ⊢
  rw [tries]
  exact ⟨looked.memo, holds_extend _ b after looked.entries looked.grown scanned.holds, by omega⟩

theorem visit_scanned (done : List EntryHeader) (header : EntryHeader) (b : Builder)
    (scanned : b.Scanned module area functions lost done) :
    (b.visit module area header).Scanned module area functions lost (done ++ [header]) := by
  unfold Builder.visit
  by_cases common : header.isCie area.kind
  · have named : header.tries area.kind = some header.offset := by simp [EntryHeader.tries, common]
    have nothing : module.functionAt area header = none := by simp [LoadedModule.functionAt, common]
    obtain ⟨-, looked⟩ := cie_looked _ header.offset b scanned.memo
    rw [show [header.offset] = (header.tries area.kind).toList by rw [named]; rfl] at looked
    obtain ⟨memo, holds, dropped⟩ := looked_scanned done header b _ scanned looked
    rw [if_pos common]
    refine ⟨memo, ?_, ?_⟩
    · simpa [nothing] using holds
    · simpa [Section.lostFunctions, common] using dropped
  · have function : header.isCie area.kind = false := by simpa using common
    obtain ⟨answer, looked⟩ := function_looked _ header b scanned.memo function
    obtain ⟨memo, holds, dropped⟩ := looked_scanned done header b _ scanned looked
    rw [if_neg common]
    generalize b.function module area header = result at answer memo holds dropped ⊢
    rcases result with ⟨found, after⟩
    cases described : header.described area module.layout with
    | error fault =>
        have nothing : module.functionAt area header = none := by
          simp [LoadedModule.functionAt, described]
        rw [described] at answer
        obtain ⟨reason, rfl⟩ := answer
        refine ⟨⟨memo.covers, memo.agrees⟩, ?_, ?_⟩
        · simpa [nothing] using holds_drop _ after _ holds
        · have counted : area.lostFunctions module.layout (done ++ [header]) =
              area.lostFunctions module.layout done + 1 := by
            simp [Section.lostFunctions, function, described, Except.toOption]
          simp only [Builder.drop, counted] at dropped ⊢
          omega
    | ok both =>
        rcases both with ⟨cie, fde⟩
        rw [described] at answer
        obtain ⟨place, rfl, found⟩ := answer
        have counted : area.lostFunctions module.layout (done ++ [header]) =
            area.lostFunctions module.layout done := by
          simp [Section.lostFunctions, function, described, Except.toOption]
        by_cases empty : fde.length = 0
        · have nothing : module.functionAt area header = none := by
            simp [LoadedModule.functionAt, described, empty]
          simp only [if_pos empty]
          refine ⟨memo, ?_, by rw [counted, dropped]⟩
          simpa [nothing] using holds
        · have something : module.functionAt area header = some (module.loaded area cie fde) := by
            simp [LoadedModule.functionAt, function, described, empty]
          simp only [if_neg empty]
          refine ⟨⟨memo.covers, memo.agrees⟩, ?_, ?_⟩
          · rw [List.filterMap_append, List.filterMap_cons_some something, ← List.append_assoc]
            exact holds_push _ after place cie fde found holds
          · rw [counted]
            exact dropped

-- The headers are visited from the front, so that what is done grows at its end.
theorem headers_scanned (headers done : List EntryHeader) (b : Builder)
    (scanned : b.Scanned module area functions lost done) :
    (headers.foldl (Builder.visit module area) b).Scanned module area functions lost
      (done ++ headers) := by
  induction headers generalizing done b with
  | nil => simpa using scanned
  | cons header rest ih =>
      rw [List.append_cons]
      exact ih _ _ (visit_scanned done header b scanned)

variable (module) in
-- A section starts with nothing remembered, and with what the sections before it have left.
theorem section_scanned (area : Section) (b : Builder) (holds : b.Holds functions)
    (dropped : b.dropped = lost) :
    Builder.Scanned module area functions lost [] { b with tried := [] } := by
  refine ⟨⟨by simp, by simp⟩, ?_, ?_⟩
  · have same := holds_extend _ b { b with tried := [] } rfl (extends_refl b.cies) holds
    simpa using same
  · simp [Section.lostCies, Section.lostOffsets, Section.lostFunctions, dropped]

theorem scan_holds (area : Section) (b : Builder) (holds : b.Holds functions)
    (dropped : b.dropped = lost) :
    (b.scan module area).Holds (functions ++ module.functionsOf area) ∧
      (b.scan module area).dropped = lost + module.lossOf area := by
  have scanned := headers_scanned (area.walk module.layout.endian).headers [] _
    (section_scanned module area b holds dropped)
  rw [List.nil_append] at scanned
  unfold Builder.scan LoadedModule.lossOf
  simp only
  cases (area.walk module.layout.endian).stopped with
  | none =>
      refine ⟨scanned.holds, ?_⟩
      simp only [scanned.dropped, Option.toList_none, List.length_nil]
      omega
  | some stop =>
      refine ⟨holds_drop _ _ _ scanned.holds, ?_⟩
      simp only [Builder.drop, scanned.dropped, Option.toList_some, List.length_singleton]
      omega

theorem sections_hold (areas : List Section) (b : Builder) (holds : b.Holds functions)
    (dropped : b.dropped = lost) :
    (areas.foldl (Builder.scan module) b).Holds (functions ++ areas.flatMap module.functionsOf) ∧
      (areas.foldl (Builder.scan module) b).dropped = lost + (areas.map module.lossOf).sum := by
  induction areas generalizing b functions lost with
  | nil => simpa using ⟨holds, dropped⟩
  | cons area rest ih =>
      obtain ⟨grown, counted⟩ := scan_holds area b holds dropped
      have whole := ih (b.scan module area) grown counted
      simpa only [List.foldl_cons, List.flatMap_cons, List.append_assoc, List.map_cons, List.sum_cons,
        Nat.add_assoc] using whole

/-- The builder of a module holds its functions and has counted its losses. -/
theorem module_holds (module : LoadedModule) :
    module.scan.Holds module.functions ∧ module.scan.dropped = module.losses := by
  have start : Builder.Holds [] {} := ⟨.nil, rfl⟩
  rw [functions_sections, losses_sections]
  simpa [LoadedModule.scan] using sections_hold module.sections {} start rfl

end Scan

/-! The index that is made of the builder. -/
section Order

theorem insert_entry_perm (e : IndexEntry) (entries : List IndexEntry) :
    (insertEntry e entries).Perm (e :: entries) := by
  fun_induction insertEntry e entries with
  | case1 => exact .refl _
  | case2 first rest before => exact .refl _
  | case3 first rest behind ih => exact (ih.cons first).trans (.swap e first rest)

theorem sort_entries_perm (entries : List IndexEntry) : (sortEntries entries).Perm entries := by
  refine (List.reverse_perm _).trans ?_
  induction entries with
  | nil => exact .refl _
  | cons e rest ih =>
      rw [List.foldr_cons]
      exact (insert_entry_perm e _).trans (ih.cons e)

theorem places_from_items (reach : UInt64) (entries : List IndexEntry) :
    (placesFrom reach entries).map (·.item) = entries := by
  induction entries generalizing reach with
  | nil => rfl
  | cons e rest ih => rw [placesFrom, List.map_cons, ih]

/-- The entries of an index in the order in which they were indexed. -/
def CfiIndex.inserted (index : CfiIndex) : List IndexEntry :=
  (index.places.toList.map (·.item)).mergeSort (·.seq ≤ ·.seq)

theorem inserted_eq (module : LoadedModule) :
    module.index.1.inserted = module.scan.entries.reverse := by
  have numbered := (module_holds module).1.numbered
  have unique : (module.scan.entries.map (·.seq)).Nodup := by
    rw [numbered, List.nodup_reverse]
    exact List.nodup_range
  have ordered : module.scan.entries.reverse.Pairwise (·.seq ≤ ·.seq) := by
    rw [← List.pairwise_map, List.map_reverse, numbered, List.reverse_reverse]
    exact List.pairwise_le_range
  have items : module.index.1.places.toList.map (·.item) = sortEntries module.scan.entries :=
    places_from_items 0 _
  have same : module.index.1.inserted.Perm module.scan.entries := by
    unfold CfiIndex.inserted
    rw [items]
    exact (List.mergeSort_perm _ _).trans (sort_entries_perm _)
  have sorted : module.index.1.inserted.Pairwise fun a b => decide (a.seq ≤ b.seq) := by
    apply List.pairwise_mergeSort
    · intro a b c
      simp only [decide_eq_true_eq]
      omega
    · intro a b
      simp only [Bool.or_eq_true, decide_eq_true_eq]
      omega
  simp only [decide_eq_true_eq] at sorted
  refine List.Perm.eq_of_pairwise ?_ sorted ordered (same.trans (List.reverse_perm _).symm)
  intro a b left right ab ba
  exact List.inj_on_of_nodup_map unique (same.subset left) (List.mem_reverse.mp right)
    (Nat.le_antisymm ab ba)

theorem entry_stands (index : CfiIndex) (e : IndexEntry) (f : CfiEntry)
    (stands : Stands index.cies e f) : index.entryOf e = some f := by
  have bias : e.low - f.fde.start = f.bias := by
    rw [stands.low, CfiEntry.start, UInt64.add_comm]
    exact UInt64.add_sub_cancel _ _
  simp only [CfiIndex.entryOf, stands.cie, Option.map_some, stands.fde, bias, stands.kind,
    stands.endian, stands.bases]

theorem inserted_stand (module : LoadedModule) :
    List.Forall₂ (Stands module.index.1.cies) module.index.1.inserted module.functions := by
  rw [inserted_eq, ← List.forall₂_reverse_iff, List.reverse_reverse]
  exact (module_holds module).1.entries

/-- The index of a module holds the functions of `.eh_frame`, then those of `.debug_frame`, each with its
common entry, in the order of the walks over the two, and has counted what could not be read. -/
theorem index_exact (module : LoadedModule) :
    (∀ area, module.ehFrame = some area ∨ module.debugFrame = some area →
      area.Walked module.layout.endian 0 (area.walk module.layout.endian)) ∧
    module.index.1.inserted.map module.index.1.entryOf = module.functions.map some ∧
    module.index.1.dropped = module.losses := by
  refine ⟨fun area _ => walk_walked area _, ?_, (module_holds module).2⟩
  rw [← List.forall₂_eq_eq_eq, List.forall₂_map_left_iff, List.forall₂_map_right_iff]
  exact (inserted_stand module).imp fun e f => entry_stands module.index.1 e f

/-- Both sections have a common entry at their start and a function. The two functions overlap. In
`.eh_frame` there is one more, which names the first function as its common entry. -/
def overlappingSections : LoadedModule where
  name := "m"
  ehFrame := some {
    kind := .ehFrame
    address := 0
    data := [
      0x10, 0, 0, 0, 0, 0, 0, 0, 1, 0x7a, 0x52, 0, 1, 0x78, 0x10, 1, 3, 0x0c, 7, 8,
      0x0d, 0, 0, 0, 0x18, 0, 0, 0, 0, 0x10, 0, 0, 0, 1, 0, 0, 0,
      0x0d, 0, 0, 0, 0x15, 0, 0, 0, 0, 0x12, 0, 0, 0, 1, 0, 0, 0] }
  debugFrame := some {
    kind := .debugFrame
    address := 0
    data := [
      0x0c, 0, 0, 0, 0xff, 0xff, 0xff, 0xff, 1, 0, 1, 0x78, 0x10, 0x0c, 7, 0x10,
      0x14, 0, 0, 0, 0, 0, 0, 0, 0x80, 0x10, 0, 0, 0, 0, 0, 0, 0, 1, 0, 0, 0, 0, 0, 0] }

-- The offset of the common entry is the same in both sections, and what is there is not. Of the last entry
-- of `.eh_frame` the common entry is lost, and the function with it.
theorem index_exact_overlapping :
    let module := overlappingSections
    (∀ area, module.ehFrame = some area →
      area.Walked .little 0 (area.walk .little) ∧ (area.walk .little).headers.map (·.offset) = [0, 20, 37]) ∧
    (module.index.1.inserted.map module.index.1.entryOf).map (·.map fun f =>
        (f.kind, f.start, f.fde.length, f.cie.augmentationText)) =
      [some (.ehFrame, 0x1000, 0x100, "zR"), some (.debugFrame, 0x1080, 0x100, "")] ∧
    module.index.1.dropped = 2 := by
  intro module
  obtain ⟨walked, held, lost⟩ := index_exact module
  refine ⟨fun area known => ⟨walked area (.inl known), ?_⟩, ?_, ?_⟩
  · cases known
    decide +kernel
  · rw [held]
    decide +kernel
  · rw [lost]
    decide +kernel

end Order

end CallFrame
