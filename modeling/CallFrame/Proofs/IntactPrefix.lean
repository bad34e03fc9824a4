import CallFrame.Proofs.IndexLookup

/-!
Damage does not reach backwards. Two sections that begin with the same bytes may differ in everything
after them. Up to an offset that the walk of the one reaches, the walk of the other goes the same way,
and what is indexed on the way is the same, if its common entry is not behind that offset.
-/

namespace CallFrame

/-! Headers in the common prefix. -/
section Prefix

theorem slice_agree {one other : List UInt8} {stop : Nat} (agree : one.take stop = other.take stop)
    (start count : Nat) (inside : start + count ≤ stop) :
    (one.drop start).take count = (other.drop start).take count := by
  have cut (bytes : List UInt8) :
      (bytes.drop start).take count = ((bytes.take stop).drop start).take count := by
    rw [List.drop_take, List.take_take, Nat.min_eq_left (by omega)]
  rw [cut one, cut other, agree]

theorem room_agree {one other : List UInt8} {stop : Nat} (agree : one.take stop = other.take stop)
    {count : Nat} (inside : count ≤ stop) (room : count ≤ one.length) : count ≤ other.length := by
  have same := congrArg List.length agree
  simp only [List.length_take] at same
  omega

theorem length_field_agree (endian : Endian) {bytes bytes' : List UInt8} {wide : Bool} {length : Nat}
    (known : lengthField endian bytes = .ok (wide, length))
    (agree : bytes.take (lengthWidth wide) = bytes'.take (lengthWidth wide)) :
    lengthField endian bytes' = .ok (wide, length) := by
  have room := length_field_room endian bytes wide length known
  have room' := room_agree agree (Nat.le_refl _) room
  have width : 4 ≤ lengthWidth wide := by cases wide <;> decide
  have short : bytes.take 4 = bytes'.take 4 := slice_agree agree 0 4 (by omega)
  unfold lengthField at known ⊢
  rw [if_neg (by omega)] at known ⊢
  rw [← short]
  split at known
  next narrow => rw [if_pos narrow, known]
  next escape =>
    rw [if_neg escape]
    split at known
    · cases known
    · cases known
      have long : (bytes.drop 4).take 8 = (bytes'.drop 4).take 8 := slice_agree agree 4 8 (by decide)
      rw [if_neg, long]
      simp only [lengthWidth, ↓reduceIte, List.length_drop] at room' ⊢
      omega

structure Section.Agree (one other : Section) (stop : Nat) : Prop where
  kind : one.kind = other.kind
  address : one.address = other.address
  data : one.data.take stop = other.data.take stop

variable {one other : Section} {stop : Nat} {endian : Endian}

theorem agree_symm (agree : one.Agree other stop) : other.Agree one stop :=
  ⟨agree.kind.symm, agree.address.symm, agree.data.symm⟩

theorem header_agree (agree : one.Agree other stop) {offset : Nat} {header : EntryHeader}
    (found : one.header endian offset = .ok (some header)) (before : header.next ≤ stop) :
    other.header endian offset = .ok (some header) := by
  obtain ⟨wide, length, known, something, inside, room, rfl⟩ :=
    header_some one endian offset header found
  have ends : offset + lengthWidth wide + length ≤ stop := before
  have width : 4 ≤ lengthWidth wide := by cases wide <;> decide
  have bounded := room_agree agree.data ends inside
  have field : lengthField endian (other.data.drop offset) = .ok (wide, length) :=
    length_field_agree endian known (slice_agree agree.data offset _ (by omega))
  have id := slice_agree agree.data (offset + lengthWidth wide) (idWidth one.kind wide) (by omega)
  have content := slice_agree agree.data (offset + lengthWidth wide) length ends
  rw [header_eq other endian offset (by omega), field]
  simp only
  rw [if_neg something, if_neg (by omega), if_neg (by rw [← agree.kind]; omega)]
  simp only [Section.headerAt, ← agree.kind, id, content]

def Section.endsBy (area : Section) (endian : Endian) (stop offset : Nat) : Bool :=
  match area.header endian offset with
  | .ok (some header) => header.next ≤ stop
  | _ => false

theorem ends_by_iff (area : Section) (offset : Nat) :
    area.endsBy endian stop offset ↔
      ∃ header, area.header endian offset = .ok (some header) ∧ header.next ≤ stop := by
  unfold Section.endsBy
  split
  next header found => simp [found]
  next absent =>
    constructor
    · rintro ⟨⟩
    · rintro ⟨header, found, -⟩
      exact absurd found (absent header)

theorem ends_by_agree (agree : one.Agree other stop) (offset : Nat) :
    one.endsBy endian stop offset = other.endsBy endian stop offset := by
  rw [Bool.eq_iff_iff, ends_by_iff, ends_by_iff]
  constructor
  · rintro ⟨header, found, before⟩
    exact ⟨header, header_agree agree found before, before⟩
  · rintro ⟨header, found, before⟩
    exact ⟨header, header_agree (agree_symm agree) found before, before⟩

end Prefix

/-! The walks. -/
section Walks

variable {one other : Section} {stop start : Nat} {endian : Endian} {walk : Walk}

/-- The walks are the same up to `stop`, and go on from there each in its own way. -/
def Walk.PartAt (stop : Nat) (walk walk' : Walk) : Prop :=
  ∃ before after after', walk.headers = before ++ after ∧ walk'.headers = before ++ after' ∧
    (∀ header ∈ after, stop ≤ header.offset) ∧ ∀ header ∈ after', stop ≤ header.offset

theorem walks_part (agree : one.Agree other stop) (walked : one.Walked endian start walk)
    (reached : stop ∈ walk.offsets start) {walk' : Walk} (walked' : other.Walked endian start walk') :
    stop ∈ walk'.offsets start ∧ Walk.PartAt stop walk walk' := by
  have here (walk : Walk) (walked : one.Walked endian stop walk) {walk' : Walk}
      (walked' : other.Walked endian stop walk') :
      stop ∈ walk'.offsets stop ∧ Walk.PartAt stop walk walk' :=
    ⟨List.mem_cons_self, [], walk.headers, walk'.headers, rfl, rfl,
      (walked_forward walked).1, (walked_forward walked').1⟩
  induction walked generalizing walk' with
  | stopped broken =>
      obtain rfl := List.mem_singleton.mp reached
      exact here _ (.stopped broken) walked'
  | ended nothing =>
      obtain rfl := List.mem_singleton.mp reached
      exact here _ (.ended nothing) walked'
  | @entered offset header rest found tail ih =>
      rcases List.mem_cons.mp reached with rfl | later
      · exact here _ (.entered found tail) walked'
      have before : header.next ≤ stop := (walked_forward tail).2 stop later
      have found' := header_agree agree found before
      cases walked' with
      | stopped broken =>
          rw [found'] at broken
          cases broken
      | ended nothing =>
          rw [found'] at nothing
          cases nothing
      | entered found'' tail' =>
          rw [found'] at found''
          cases found''
          obtain ⟨reached', headers, after, after', split, split', high, high'⟩ := ih later tail'
          refine ⟨List.mem_cons_of_mem _ reached', header :: headers, after, after', ?_, ?_, high,
            high'⟩
          · rw [split, List.cons_append]
          · rw [split', List.cons_append]

end Walks

/-! The functions of the prefix. -/
section Functions

variable {one other : Section} {stop : Nat}

theorem parse_agree (agree : one.Agree other stop) (layout : Layout) (header : EntryHeader) :
    header.cie one layout = header.cie other layout ∧
      ∀ cie, header.fde cie one layout = header.fde cie other layout := by
  have bases : one.bases layout = other.bases layout := by simp only [Section.bases, agree.address]
  constructor
  · simp only [EntryHeader.cie, readCie, agree.kind, bases]
  · intro cie
    simp only [EntryHeader.fde, bases]

theorem cie_agree (agree : one.Agree other stop) (layout : Layout) (offset : Nat)
    (before : one.endsBy layout.endian stop offset) :
    one.cie layout offset = other.cie layout offset := by
  obtain ⟨header, found, inside⟩ := (ends_by_iff one offset).mp before
  rw [Section.cie, Section.cie, found, header_agree agree found inside]
  exact (parse_agree agree layout header).1

/-- A function of the section that stands before `stop`, with a common entry that ends by then; or a
function of another section. -/
def Section.keeps (area : Section) (endian : Endian) (stop : Nat) (f : CfiEntry) : Bool :=
  f.kind ≠ area.kind || f.fde.offset < stop && area.endsBy endian stop f.fde.cieOffset

theorem keeps_agree (agree : one.Agree other stop) (endian : Endian) :
    one.keeps endian stop = other.keeps endian stop := by
  funext f
  simp only [Section.keeps, agree.kind, ends_by_agree agree]

variable {module : LoadedModule}

theorem function_at_origin {area : Section} {header : EntryHeader} {f : CfiEntry}
    (found : module.functionAt area header = some f) :
    f.kind = area.kind ∧ f.fde.offset = header.offset ∧
      header.cieOffset area.kind = .ok f.fde.cieOffset ∧
      header.described area module.layout = .ok (f.cie, f.fde) := by
  obtain ⟨cie, fde, described, -, rfl⟩ := function_at_some found
  obtain ⟨offset, named, rest⟩ := bind_ok described
  obtain ⟨shared, read, rest⟩ := bind_ok rest
  obtain ⟨function, own, rest⟩ := bind_ok rest
  cases rest
  have common := read_fde_cie_offset header.offset cie _ header.body fde own
  rw [section_cie_offset area module.layout offset cie read] at common
  exact ⟨rfl, read_fde_offset header.offset cie _ header.body fde own, common ▸ named, described⟩

theorem described_agree (agree : one.Agree other stop) (layout : Layout) {header : EntryHeader}
    {offset : Nat} (named : header.cieOffset one.kind = .ok offset)
    (before : one.endsBy layout.endian stop offset) :
    header.described one layout = header.described other layout := by
  unfold EntryHeader.described
  rw [← agree.kind, named]
  simp only [bind, Except.bind, cie_agree agree layout offset before,
    (parse_agree agree layout header).2]

theorem function_agree (agree : one.Agree other stop) {header : EntryHeader} {f : CfiEntry}
    (found : module.functionAt one header = some f)
    (before : one.endsBy module.layout.endian stop f.fde.cieOffset) :
    module.functionAt other header = some f := by
  obtain ⟨-, -, named, -⟩ := function_at_origin found
  have loaded (cie : Cie) (fde : Fde) : module.loaded one cie fde = module.loaded other cie fde := by
    simp only [LoadedModule.loaded, Section.bases, agree.kind, agree.address]
  unfold LoadedModule.functionAt at found ⊢
  rw [← described_agree agree module.layout named before, ← agree.kind]
  simpa only [loaded] using found

theorem function_kept (agree : one.Agree other stop) {header : EntryHeader} {f : CfiEntry}
    (kept : f ∈ (module.functionAt one header).filter (one.keeps module.layout.endian stop)) :
    f ∈ (module.functionAt other header).filter (other.keeps module.layout.endian stop) := by
  obtain ⟨found, keeps⟩ := Option.mem_filter_iff.mp kept
  obtain ⟨kind, -⟩ := function_at_origin found
  have before : one.endsBy module.layout.endian stop f.fde.cieOffset := by
    simp only [Section.keeps, kind, ne_eq, not_true_eq_false, decide_false, Bool.false_or,
      Bool.and_eq_true] at keeps
    exact keeps.2
  rw [keeps_agree agree] at keeps
  exact Option.mem_filter_iff.mpr ⟨function_agree agree found before, keeps⟩

theorem functions_kept (agree : one.Agree other stop) (headers : List EntryHeader) :
    (headers.filterMap (module.functionAt one)).filter (one.keeps module.layout.endian stop) =
      (headers.filterMap (module.functionAt other)).filter
        (other.keeps module.layout.endian stop) := by
  rw [List.filter_filterMap, List.filter_filterMap]
  congr 1
  funext header
  ext f
  exact ⟨function_kept agree, function_kept (agree_symm agree)⟩

theorem functions_behind (area : Section) (headers : List EntryHeader)
    (behind : ∀ header ∈ headers, stop ≤ header.offset) :
    (headers.filterMap (module.functionAt area)).filter (area.keeps module.layout.endian stop) =
      [] := by
  rw [List.filter_eq_nil_iff]
  intro f member
  obtain ⟨header, inside, found⟩ := List.mem_filterMap.mp member
  obtain ⟨kind, place, -⟩ := function_at_origin found
  have after : ¬ f.fde.offset < stop := by
    rw [place]
    exact Nat.not_lt.mpr (behind header inside)
  simp [Section.keeps, kind, after]

end Functions

/-! The indexes. -/
section Indexes

def CfiIndex.listed (index : CfiIndex) : List (CfiEntry × UInt64 × UInt64) :=
  index.inserted.filterMap fun e => (index.entryOf e).map (·, e.low, e.high)

theorem index_listed (module : LoadedModule) :
    module.index.1.listed =
      module.functions.map fun f => (f, f.start, saturatingEnd f.start f.fde.length) := by
  have stand := inserted_stand module
  unfold CfiIndex.listed
  generalize module.index.1.inserted = entries, module.functions = functions at stand
  induction stand with
  | nil => rfl
  | cons first tail ih =>
      rw [List.filterMap_cons, entry_stands _ _ _ first, ih, List.map_cons, first.low, first.high]
      rfl

def LoadedModule.withSection (module : LoadedModule) (area : Section) : LoadedModule :=
  match area.kind with
  | .ehFrame => { module with ehFrame := some area }
  | .debugFrame => { module with debugFrame := some area }

variable {one other : Section} {stop : Nat} (module : LoadedModule)

theorem scanned_kept (agree : one.Agree other stop)
    (reached : stop ∈ one.reached module.layout.endian) :
    (module.functionsOf one).filter (one.keeps module.layout.endian stop) =
      (module.functionsOf other).filter (other.keeps module.layout.endian stop) := by
  obtain ⟨-, before, after, after', split, split', behind, behind'⟩ :=
    walks_part agree (walk_walked one _) reached (walk_walked other _)
  rw [LoadedModule.functionsOf, LoadedModule.functionsOf, split, split', List.filterMap_append,
    List.filterMap_append, List.filter_append, List.filter_append, functions_behind one after behind,
    functions_behind other after' behind', functions_kept agree before]

theorem module_kept (agree : one.Agree other stop)
    (reached : stop ∈ one.reached module.layout.endian) :
    (module.withSection one).functions.filter (one.keeps module.layout.endian stop) =
      (module.withSection other).functions.filter (other.keeps module.layout.endian stop) := by
  have scanned := scanned_kept module agree reached
  unfold LoadedModule.withSection
  rw [← agree.kind]
  cases one.kind with
  | ehFrame =>
      simp only [LoadedModule.functions, Option.elim_some, List.filter_append]
      rw [← keeps_agree agree] at scanned ⊢
      exact congrArg (· ++ _) scanned
  | debugFrame =>
      simp only [LoadedModule.functions, Option.elim_some, List.filter_append]
      rw [← keeps_agree agree] at scanned ⊢
      exact congrArg (_ ++ ·) scanned

/-- If a section begins like another up to an offset that the walk over the other reaches, its own walk
gets there too. The module's index then lists the same functions, with the same common entries and
ranges, in the same order, as far as they and their common entries stand before that offset or in the
module's other section. -/
theorem damage_stays_behind (one other : Section) (stop : Nat) (kind : one.kind = other.kind)
    (address : one.address = other.address) (data : one.data.take stop = other.data.take stop)
    (reached : stop ∈ one.reached module.layout.endian) :
    stop ∈ other.reached module.layout.endian ∧
      (module.withSection one).index.1.listed.filter
          (fun listed => one.keeps module.layout.endian stop listed.1) =
        (module.withSection other).index.1.listed.filter
          (fun listed => other.keeps module.layout.endian stop listed.1) := by
  have agree : one.Agree other stop := ⟨kind, address, data⟩
  refine ⟨(walks_part agree (walk_walked one _) reached (walk_walked other _)).1, ?_⟩
  rw [index_listed, index_listed, List.filter_map, List.filter_map]
  exact congrArg _ (module_kept module agree reached)

def soundUpTo37 (rest : List UInt8) : Section where
  kind := .ehFrame
  address := 0
  data := [
    0x10, 0, 0, 0, 0, 0, 0, 0, 1, 0x7a, 0x52, 0, 1, 0x78, 0x10, 1, 3, 0x0c, 7, 8,
    0x0d, 0, 0, 0, 0x18, 0, 0, 0, 0, 0x10, 0, 0, 0x10, 0, 0, 0, 0] ++ rest

theorem damage_stays_behind_sound_function :
    37 ∈ (soundUpTo37 []).reached .little ∧
      (((LoadedModule.withSection { name := "cut" } (soundUpTo37 [0xff, 0xff])).index.1.listed.filter
        fun listed => (soundUpTo37 [0xff, 0xff]).keeps .little 37 listed.1).map
          (·.1.fde.offset)) = [20] := by
  have reached : 37 ∈ (soundUpTo37 []).reached .little := by decide +kernel
  obtain ⟨-, kept⟩ := damage_stays_behind { name := "cut" } (soundUpTo37 [])
    (soundUpTo37 [0xff, 0xff]) 37 rfl rfl rfl reached
  refine ⟨reached, ?_⟩
  rw [← kept, index_listed]
  decide +kernel

end Indexes

end CallFrame
