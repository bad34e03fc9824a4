import CallFrame.Proofs.Reading
import CallFrame.Section.Walk

/-!
Where a walk over a section goes. The length field alone says where an entry ends; the header reader
adds that the id has to fit, and this is the one thing inside an entry that can end a walk. The walk
is then described without its bound, as the chain of headers that each end where the next begins.
-/

namespace CallFrame

/-! The length field, and the header behind it. -/
section Header

def lengthField (endian : Endian) (bytes : List UInt8) : Except Fault (Bool × Nat) :=
  if bytes.length < 4 then .error (.readPastEnd 4 bytes.length)
  else if endian.value (bytes.take 4) ≠ 0xffffffff then .ok (false, endian.value (bytes.take 4))
  else if (bytes.drop 4).length < 8 then .error (.readPastEnd 8 (bytes.drop 4).length)
  else .ok (true, endian.value ((bytes.drop 4).take 8))

def lengthWidth (wide : Bool) : Nat := if wide then 12 else 4

theorem read_length_run (cursor : Cursor) :
    match lengthField cursor.endian cursor.data with
    | .error fault => (readLength.run cursor).1 = .error fault
    | .ok (wide, length) =>
      readLength.run cursor = (.ok (wide, length.toUInt64), cursor.advance (lengthWidth wide)) ∧
        length.toUInt64.toNat = length ∧ lengthWidth wide ≤ cursor.data.length := by
  unfold lengthField
  rw [readLength, ReadM.run_bind, read_word_run]
  by_cases short : cursor.data.length < 4
  · simp only [short, ↓reduceIte]
  have exact4 := value_to_word cursor.endian (cursor.data.take 4) (by rw [List.length_take]; omega)
  simp only [short, ↓reduceIte]
  by_cases escape : cursor.endian.value (cursor.data.take 4) = 0xffffffff
  · have word : (cursor.endian.value (cursor.data.take 4)).toUInt64 = 0xffffffff := by
      rw [escape]
      rfl
    simp only [word, ↓reduceIte]
    simp only [escape, ne_eq, not_true_eq_false, ↓reduceIte]
    have behind : (cursor.advance 4).data = cursor.data.drop 4 := rfl
    rw [ReadM.run_bind, read_word_run, behind]
    by_cases cut : (cursor.data.drop 4).length < 8
    · simp only [cut, ↓reduceIte]
    · simp only [cut, ↓reduceIte]
      refine ⟨?_, value_to_word _ _ (by rw [List.length_take]; omega), ?_⟩
      · simp only [Cursor.advance, List.drop_drop, lengthWidth, ↓reduceIte]
        rfl
      · simp only [List.length_drop, lengthWidth, ↓reduceIte] at cut ⊢
        omega
  · have word : (cursor.endian.value (cursor.data.take 4)).toUInt64 ≠ 0xffffffff := by
      intro same
      rw [same] at exact4
      exact escape exact4.symm
    simp only [escape, word, ne_eq, not_false_eq_true, ↓reduceIte]
    exact ⟨rfl, exact4, by simp only [lengthWidth, Bool.false_eq_true, ↓reduceIte]; omega⟩

theorem read_length_fault (cursor : Cursor) (fault : Fault)
    (unknown : lengthField cursor.endian cursor.data = .error fault) :
    (readLength.run cursor).1 = .error fault := by
  simpa only [unknown] using read_length_run cursor

theorem read_length_known (cursor : Cursor) (wide : Bool) (length : Nat)
    (known : lengthField cursor.endian cursor.data = .ok (wide, length)) :
    readLength.run cursor = (.ok (wide, length.toUInt64), cursor.advance (lengthWidth wide)) ∧
      length.toUInt64.toNat = length ∧ lengthWidth wide ≤ cursor.data.length := by
  simpa only [known] using read_length_run cursor

theorem read_entry_run (kind : SectionKind) (offset : Nat) (wide : Bool) (length : UInt64)
    (content : Cursor) :
    ((readEntry kind offset wide length).run content).1 =
      if content.data.length < length.toNat then .error (.entryPastEnd offset length)
      else if length.toNat < idWidth kind wide then
        .error (.readPastEnd (idWidth kind wide) length.toNat)
      else .ok {
        offset, wide
        id := (content.endian.value (content.data.take (idWidth kind wide))).toUInt64
        idOffset := content.offset
        body := ({ content with data := content.data.take length.toNat }).advance (idWidth kind wide)
        next := content.offset + length.toNat } := by
  rw [readEntry, ReadM.run_bind, ReadM.run_get]
  by_cases outside : content.data.length < length.toNat
  · simp only [outside, ↓reduceIte]
    rfl
  simp only [outside, ↓reduceIte]
  rw [ReadM.run_bind, read_bytes_run]
  have whole : (content.data.take length.toNat).length = length.toNat := by
    rw [List.length_take]
    omega
  simp only [outside, ↓reduceIte, read_word_run, whole]
  by_cases brief : length.toNat < idWidth kind wide
  · simp only [brief, ↓reduceIte]
    rfl
  · have first : (content.data.take length.toNat).take (idWidth kind wide) =
        content.data.take (idWidth kind wide) := by
      rw [List.take_take, Nat.min_eq_left (by omega)]
    simp only [brief, ↓reduceIte, first]
    rfl

def Section.headerAt (area : Section) (endian : Endian) (offset : Nat) (wide : Bool)
    (length : Nat) : EntryHeader :=
  let content := area.data.drop (offset + lengthWidth wide)
  let width := idWidth area.kind wide
  { offset, wide
    id := (endian.value (content.take width)).toUInt64
    idOffset := offset + lengthWidth wide
    body := ⟨(content.take length).drop width, offset + lengthWidth wide + width, endian⟩
    next := offset + lengthWidth wide + length }

/-- All that a header read inside a section can come to. Only the last two answers but one depend on
more than the length field, and they depend on its value alone. -/
theorem header_eq (area : Section) (endian : Endian) (offset : Nat)
    (inside : offset < area.data.length) :
    area.header endian offset =
      match lengthField endian (area.data.drop offset) with
      | .error fault => .error fault
      | .ok (wide, length) =>
        if length = 0 then .ok none
        else if area.data.length < offset + lengthWidth wide + length then
          .error (.entryPastEnd offset length.toUInt64)
        else if length < idWidth area.kind wide then
          .error (.readPastEnd (idWidth area.kind wide) length)
        else .ok (some (area.headerAt endian offset wide length)) := by
  have nonempty : (area.data.drop offset).isEmpty = false := by
    simp only [List.isEmpty_eq_false_iff, ne_eq, List.drop_eq_nil_iff]
    omega
  rw [Section.header, if_neg (by omega), ReadM.value, readHeader, ReadM.run_bind, ReadM.run_get]
  simp only [nonempty, Bool.false_eq_true, ↓reduceIte]
  rw [ReadM.run_bind]
  cases found : lengthField endian (area.data.drop offset) with
  | error fault =>
      have failed := read_length_fault ⟨area.data.drop offset, offset, endian⟩ fault found
      rcases read : readLength.run ⟨area.data.drop offset, offset, endian⟩ with ⟨result, rest⟩
      rw [read] at failed
      simp only at failed ⊢
      rw [failed]
  | ok field =>
      rcases field with ⟨wide, length⟩
      obtain ⟨read, exact, room⟩ :=
        read_length_known ⟨area.data.drop offset, offset, endian⟩ wide length found
      rw [read]
      have zero : length.toUInt64 = 0 ↔ length = 0 := by
        rw [← UInt64.toNat_inj, exact]
        rfl
      simp only [zero]
      by_cases terminator : length = 0
      · simp only [terminator, ↓reduceIte]
        rfl
      have left : ((⟨area.data.drop offset, offset, endian⟩ : Cursor).advance
          (lengthWidth wide)).data = area.data.drop (offset + lengthWidth wide) := by
        simp [Cursor.advance]
      have past : (area.data.drop (offset + lengthWidth wide)).length < length ↔
          area.data.length < offset + lengthWidth wide + length := by
        simp only [List.length_drop] at room ⊢
        omega
      simp only [terminator, ↓reduceIte]
      rw [ReadM.run_map_fst, read_entry_run, exact, left]
      simp only [past]
      split
      · rfl
      · split <;> rfl

theorem header_at_end (area : Section) (endian : Endian) :
    area.header endian area.data.length = .ok none := by
  rw [Section.header, if_neg (Nat.lt_irrefl _), List.drop_length]
  rfl

theorem length_field_room (endian : Endian) (bytes : List UInt8) (wide : Bool) (length : Nat)
    (known : lengthField endian bytes = .ok (wide, length)) : lengthWidth wide ≤ bytes.length :=
  (read_length_known ⟨bytes, 0, endian⟩ wide length known).2.2

theorem header_some (area : Section) (endian : Endian) (offset : Nat) (header : EntryHeader)
    (found : area.header endian offset = .ok (some header)) :
    ∃ wide length, lengthField endian (area.data.drop offset) = .ok (wide, length) ∧
      length ≠ 0 ∧ offset + lengthWidth wide + length ≤ area.data.length ∧
      idWidth area.kind wide ≤ length ∧ header = area.headerAt endian offset wide length := by
  rcases Nat.lt_trichotomy offset area.data.length with inside | same | outside
  · rw [header_eq area endian offset inside] at found
    split at found
    · cases found
    · next wide length known =>
      refine ⟨wide, length, known, ?_⟩
      split at found
      · cases found
      split at found
      · cases found
      split at found
      · cases found
      · cases found
        exact ⟨by assumption, by omega, by omega, rfl⟩
  · rw [same, header_at_end] at found
    cases found
  · rw [Section.header, if_pos outside] at found
    cases found

theorem header_advances (area : Section) (endian : Endian) (offset : Nat) (header : EntryHeader)
    (found : area.header endian offset = .ok (some header)) :
    header.offset = offset ∧ offset < header.next ∧ header.next ≤ area.data.length := by
  obtain ⟨wide, length, -, something, inside, -, rfl⟩ := header_some area endian offset header found
  have width : 4 ≤ lengthWidth wide := by cases wide <;> decide
  simp only [Section.headerAt, true_and]
  omega

end Header

/-! The walk, without the bound that makes it a recursion. -/
section Chain

/-- A walk from an offset: to an offset where there is no header, each header beginning where the
one before it ends. -/
inductive Section.Walked (area : Section) (endian : Endian) : Nat → Walk → Prop
  | stopped {offset : Nat} {fault : Fault} (broken : area.header endian offset = .error fault) :
      area.Walked endian offset ⟨[], some (offset, fault)⟩
  | ended {offset : Nat} (nothing : area.header endian offset = .ok none) :
      area.Walked endian offset ⟨[], none⟩
  | entered {offset : Nat} {header : EntryHeader} {rest : Walk}
      (found : area.header endian offset = .ok (some header))
      (tail : area.Walked endian header.next rest) :
      area.Walked endian offset { rest with headers := header :: rest.headers }

theorem walk_from_walked (area : Section) (endian : Endian) (fuel offset : Nat)
    (inside : offset ≤ area.data.length) (enough : area.data.length < offset + fuel) :
    area.Walked endian offset (area.walkFrom endian fuel offset) := by
  induction fuel generalizing offset with
  | zero => omega
  | succ fuel ih =>
      unfold Section.walkFrom
      cases found : area.header endian offset with
      | error fault => exact .stopped found
      | ok next =>
          cases next with
          | none => exact .ended found
          | some header =>
              obtain ⟨-, forward, bounded⟩ := header_advances area endian offset header found
              exact .entered found (ih header.next bounded (by omega))

/-- The walk of a section is the whole chain from its start. -/
theorem walk_walked (area : Section) (endian : Endian) :
    area.Walked endian 0 (area.walk endian) :=
  walk_from_walked area endian _ 0 (Nat.zero_le _) (by omega)

def Walk.offsets (walk : Walk) (start : Nat) : List Nat :=
  start :: walk.headers.map (·.next)

def Walk.finish (walk : Walk) (start : Nat) : Nat :=
  (walk.offsets start).getLast (List.cons_ne_nil _ _)

variable {area : Section} {endian : Endian} {start : Nat} {walk : Walk}

theorem lone_consecutive {offset : Nat} (here after : Nat)
    (absent : ∀ header, area.header endian offset ≠ .ok (some header)) :
    [here, after] <:+: [offset] ↔
      here ∈ [offset] ∧ ∃ header, area.header endian here = .ok (some header) ∧
        header.next = after := by
  constructor
  · intro follows
    exact absurd follows.length_le (by simp)
  · rintro ⟨member, header, found, -⟩
    rw [List.mem_singleton.mp member] at found
    exact absurd found (absent header)

theorem walked_found (walked : area.Walked endian start walk) (header : EntryHeader)
    (member : header ∈ walk.headers) : area.header endian header.offset = .ok (some header) := by
  induction walked with
  | stopped | ended => cases member
  | @entered offset first rest found tail ih =>
      rcases List.mem_cons.mp member with rfl | later
      · rw [(header_advances area endian offset header found).1, found]
      · exact ih later

-- Two offsets follow each other in the walk just where a header leads from one to the other.
theorem walked_consecutive (walked : area.Walked endian start walk) (here after : Nat) :
    [here, after] <:+: walk.offsets start ↔
      here ∈ walk.offsets start ∧
        ∃ header, area.header endian here = .ok (some header) ∧ header.next = after := by
  induction walked with
  | stopped broken => exact lone_consecutive here after (by simp [broken])
  | ended nothing => exact lone_consecutive here after (by simp [nothing])
  | @entered offset header rest found tail ih =>
      have unfolded : Walk.offsets { rest with headers := header :: rest.headers } offset =
          offset :: rest.offsets header.next := rfl
      have first : [here, after] <+: offset :: rest.offsets header.next ↔
          here = offset ∧ after = header.next := by
        simp [Walk.offsets, List.cons_prefix_cons]
      rw [unfolded, List.infix_cons_iff, first, ih, List.mem_cons]
      constructor
      · rintro (⟨rfl, rfl⟩ | ⟨member, leads⟩)
        · exact ⟨.inl rfl, header, found, rfl⟩
        · exact ⟨.inr member, leads⟩
      · rintro ⟨rfl | member, leads⟩
        · obtain ⟨other, same, next⟩ := leads
          rw [found] at same
          cases same
          exact .inl ⟨rfl, next.symm⟩
        · exact .inr ⟨member, leads⟩

theorem walked_finish (walked : area.Walked endian start walk) :
    (area.header endian (walk.finish start) = .ok none ∧ walk.stopped = none) ∨
      ∃ fault, area.header endian (walk.finish start) = .error fault ∧
        walk.stopped = some (walk.finish start, fault) := by
  induction walked with
  | stopped broken => exact .inr ⟨_, broken, rfl⟩
  | ended nothing => exact .inl ⟨nothing, rfl⟩
  | entered found tail ih => simpa [Walk.finish, Walk.offsets] using ih

theorem finish_mem (walk : Walk) (start : Nat) : walk.finish start ∈ walk.offsets start :=
  List.getLast_mem _

theorem walked_bounded (walked : area.Walked endian start walk)
    (inside : start ≤ area.data.length) (offset : Nat) (member : offset ∈ walk.offsets start) :
    offset ≤ area.data.length := by
  induction walked with
  | stopped | ended =>
      simp only [Walk.offsets, List.map_nil, List.mem_singleton] at member
      omega
  | @entered from' header rest found tail ih =>
      obtain ⟨-, -, bounded⟩ := header_advances area endian _ _ found
      rcases List.mem_cons.mp member with rfl | later
      · exact inside
      · exact ih bounded later

theorem walked_forward (walked : area.Walked endian start walk) :
    (∀ header ∈ walk.headers, start ≤ header.offset) ∧
      ∀ offset ∈ walk.offsets start, start ≤ offset := by
  induction walked with
  | stopped broken => simp [Walk.offsets]
  | ended nothing => simp [Walk.offsets]
  | @entered offset header rest found tail ih =>
      obtain ⟨same, forward, -⟩ := header_advances area endian offset header found
      constructor
      · intro later member
        rcases List.mem_cons.mp member with rfl | behind
        · exact Nat.le_of_eq same.symm
        · exact Nat.le_trans (Nat.le_of_lt forward) (ih.1 later behind)
      · intro later member
        rcases List.mem_cons.mp member with rfl | behind
        · exact Nat.le_refl _
        · exact Nat.le_trans (Nat.le_of_lt forward) (ih.2 later behind)

-- A walk goes on from every offset but its last.
theorem walked_halts (walked : area.Walked endian start walk) (offset : Nat)
    (member : offset ∈ walk.offsets start)
    (absent : ∀ header, area.header endian offset ≠ .ok (some header)) :
    offset = walk.finish start := by
  induction walked with
  | stopped | ended => simpa [Walk.offsets, Walk.finish] using member
  | @entered from' header rest found tail ih =>
      rcases List.mem_cons.mp member with rfl | later
      · exact absurd found (absent header)
      · simpa [Walk.finish, Walk.offsets] using ih later

end Chain

/-! Which entries a scan gets over. The extent of an entry is known from its length field, so that a
scan could go on behind every entry of known extent. It does, save where the id does not fit. -/
section Recovery

def Section.reached (area : Section) (endian : Endian) : List Nat :=
  (area.walk endian).offsets 0

def Section.finish (area : Section) (endian : Endian) : Nat :=
  (area.walk endian).finish 0

/-- The entry at `offset` ends at `stop`: its length field is complete, is not zero, and keeps the
entry inside the section. -/
def Section.Extent (area : Section) (endian : Endian) (offset stop : Nat) : Prop :=
  ∃ wide length, lengthField endian (area.data.drop offset) = .ok (wide, length) ∧
    length ≠ 0 ∧ stop = offset + lengthWidth wide + length ∧ stop ≤ area.data.length

inductive Section.LawfulEnd (area : Section) (endian : Endian) (offset : Nat) : Prop
  | sectionEnd (atEnd : offset = area.data.length)
  | terminator {wide : Bool} (variant : area.kind = .ehFrame)
      (zero : lengthField endian (area.data.drop offset) = .ok (wide, 0))
  | truncated {fault : Fault} (cut : lengthField endian (area.data.drop offset) = .error fault)
  | pastEnd {wide : Bool} {length : Nat}
      (known : lengthField endian (area.data.drop offset) = .ok (wide, length))
      (outside : area.data.length < offset + lengthWidth wide + length)

/-- Whatever an entry of known extent holds, the walk goes on behind it; and nothing else ends it
but a lawful end. -/
structure Section.Resynchronises (area : Section) (endian : Endian) : Prop where
  resumes : ∀ offset ∈ area.reached endian, ∀ stop, area.Extent endian offset stop →
    [offset, stop] <:+: area.reached endian
  ends : area.LawfulEnd endian (area.finish endian)

/-- A length field that a scan may meet without harm: zero only where zero ends a section, and else
room for the id if the entry is inside the section at all. -/
def Section.FieldRoom (area : Section) (offset : Nat) (wide : Bool) (length : Nat) : Prop :=
  if length = 0 then area.kind = .ehFrame
  else offset + lengthWidth wide + length ≤ area.data.length → idWidth area.kind wide ≤ length

variable (area : Section) (endian : Endian)

theorem extent_resumes (offset stop : Nat) (member : offset ∈ area.reached endian)
    (room : ∀ wide length, lengthField endian (area.data.drop offset) = .ok (wide, length) →
      area.FieldRoom offset wide length)
    (extent : area.Extent endian offset stop) : [offset, stop] <:+: area.reached endian := by
  obtain ⟨wide, length, known, something, rfl, bounded⟩ := extent
  have inside : offset < area.data.length := by
    have := length_field_room endian _ wide length known
    omega
  have fits := room wide length known
  rw [Section.FieldRoom, if_neg something] at fits
  refine (walked_consecutive (walk_walked area endian) _ _).mpr ⟨member, ?_⟩
  refine ⟨area.headerAt endian offset wide length, ?_, rfl⟩
  rw [header_eq area endian offset inside, known]
  simp only
  rw [if_neg something, if_neg (by omega), if_neg (Nat.not_lt.mpr (fits bounded))]

theorem finish_lawful
    (room : ∀ wide length,
      lengthField endian (area.data.drop (area.finish endian)) = .ok (wide, length) →
        area.FieldRoom (area.finish endian) wide length) :
    area.LawfulEnd endian (area.finish endian) := by
  have absent : ∀ header, area.header endian (area.finish endian) ≠ .ok (some header) := by
    rcases walked_finish (walk_walked area endian) with ⟨nothing, -⟩ | ⟨fault, broken, -⟩
    · simp [Section.finish, nothing]
    · simp [Section.finish, broken]
  have bounded : area.finish endian ≤ area.data.length :=
    walked_bounded (walk_walked area endian) (Nat.zero_le _) _ (finish_mem _ _)
  rcases Nat.lt_or_eq_of_le bounded with inside | atEnd
  · cases known : lengthField endian (area.data.drop (area.finish endian)) with
    | error fault => exact .truncated known
    | ok field =>
        rcases field with ⟨wide, length⟩
        have fits := room wide length known
        unfold Section.FieldRoom at fits
        by_cases zero : length = 0
        · rw [if_pos zero] at fits
          exact .terminator fits (zero ▸ known)
        rw [if_neg zero] at fits
        by_cases outside : area.data.length < area.finish endian + lengthWidth wide + length
        · exact .pastEnd known outside
        -- with room for the id there would have been a header
        refine absurd ?_ (absent (area.headerAt endian (area.finish endian) wide length))
        rw [header_eq area endian _ inside, known]
        simp only
        rw [if_neg zero, if_neg outside, if_neg (by omega)]
  · exact .sectionEnd atEnd

theorem reached_halts (offset : Nat) (member : offset ∈ area.reached endian)
    (absent : ∀ header, area.header endian offset ≠ .ok (some header)) :
    area.finish endian = offset :=
  (walked_halts (walk_walked area endian) offset member absent).symm

theorem resynchronises_room (sound : area.Resynchronises endian) (offset : Nat)
    (member : offset ∈ area.reached endian) (wide : Bool) (length : Nat)
    (known : lengthField endian (area.data.drop offset) = .ok (wide, length)) :
    area.FieldRoom offset wide length := by
  have field := length_field_room endian _ wide length known
  have width : 4 ≤ lengthWidth wide := by cases wide <;> decide
  rw [List.length_drop] at field
  unfold Section.FieldRoom
  split
  next zero =>
    subst zero
    have nothing : area.header endian offset = .ok none := by
      rw [header_eq area endian offset (by omega), known]
      rfl
    have last := reached_halts area endian offset member (by simp [nothing])
    have lawful := sound.ends
    rw [last] at lawful
    cases lawful with
    | sectionEnd atEnd => omega
    | terminator variant _ => exact variant
    | truncated cut =>
        rw [known] at cut
        cases cut
    | pastEnd other outside =>
        rw [known] at other
        cases other
        omega
  next something =>
    intro bounded
    have follows := sound.resumes offset member _ ⟨wide, length, known, something, rfl, bounded⟩
    obtain ⟨-, header, found, -⟩ :=
      (walked_consecutive (walk_walked area endian) _ _).mp follows
    obtain ⟨wide', length', known', -, -, fits, -⟩ := header_some area endian offset header found
    rw [known] at known'
    cases known'
    exact fits

theorem brief_entry_stops (offset : Nat) (member : offset ∈ area.reached endian) (wide : Bool)
    (length : Nat) (known : lengthField endian (area.data.drop offset) = .ok (wide, length))
    (something : length ≠ 0) (bounded : offset + lengthWidth wide + length ≤ area.data.length)
    (brief : length < idWidth area.kind wide) :
    area.finish endian = offset ∧
      (area.walk endian).stopped =
        some (offset, .readPastEnd (idWidth area.kind wide) length) := by
  have broken : area.header endian offset =
      .error (.readPastEnd (idWidth area.kind wide) length) := by
    rw [header_eq area endian offset (by omega), known]
    simp only
    rw [if_neg something, if_neg (by omega), if_pos brief]
  have last := reached_halts area endian offset member (by simp [broken])
  refine ⟨last, ?_⟩
  rcases walked_finish (walk_walked area endian) with ⟨nothing, -⟩ | ⟨fault, other, stopped⟩
  · rw [show (area.walk endian).finish 0 = offset from last, broken] at nothing
    cases nothing
  · rw [show (area.walk endian).finish 0 = offset from last] at other stopped
    rw [broken] at other
    cases other
    exact stopped

/-- A scan gets over every entry of known extent, and ends lawfully, exactly if every length it meets
leaves room for the id and no zero length stands in the debugging variant. An entry of known extent
that has no room for its id ends the scan at its own offset, whatever comes behind it. -/
theorem recovery_exact :
    (area.Resynchronises endian ↔
      ∀ offset ∈ area.reached endian, ∀ wide length,
        lengthField endian (area.data.drop offset) = .ok (wide, length) →
          area.FieldRoom offset wide length) ∧
    (∀ offset ∈ area.reached endian, ∀ wide length,
      lengthField endian (area.data.drop offset) = .ok (wide, length) → length ≠ 0 →
        offset + lengthWidth wide + length ≤ area.data.length →
          length < idWidth area.kind wide →
            area.finish endian = offset ∧
              (area.walk endian).stopped =
                some (offset, .readPastEnd (idWidth area.kind wide) length)) := by
  refine ⟨⟨resynchronises_room area endian, fun room => ?_⟩, brief_entry_stops area endian⟩
  constructor
  · intro offset member stop extent
    exact extent_resumes area endian offset stop member (room offset member) extent
  · exact finish_lawful area endian (room _ (finish_mem _ _))

def briefEntry : Section where
  kind := .ehFrame
  address := 0
  data := [
    0x10, 0, 0, 0, 0, 0, 0, 0, 1, 0x7a, 0x52, 0, 1, 0x78, 0x10, 1, 3, 0x0c, 7, 8,
    2, 0, 0, 0, 0, 0,
    0x0d, 0, 0, 0, 0x1e, 0, 0, 0, 0, 0x10, 0, 0, 0x10, 0, 0, 0, 0]

theorem brief_entry_loses_the_rest : ¬ briefEntry.Resynchronises .little := by
  intro sound
  have reached : briefEntry.reached .little = [0, 20] := by decide +kernel
  have extent : briefEntry.Extent .little 20 26 :=
    ⟨false, 2, rfl, by decide, rfl, by decide⟩
  have follows := sound.resumes 20 (by rw [reached]; decide) 26 extent
  rw [reached] at follows
  exact absurd follows.sublist (by decide)

theorem recovery_exact_brief_entry :
    20 ∈ briefEntry.reached .little ∧ briefEntry.finish .little = 20 ∧
      (briefEntry.walk .little).stopped = some (20, .readPastEnd 4 2) := by
  have member : 20 ∈ briefEntry.reached .little := by decide +kernel
  have known : lengthField .little (briefEntry.data.drop 20) = .ok (false, 2) := rfl
  exact ⟨member, (recovery_exact briefEntry .little).2 20 member false 2 known (by decide)
    (by decide) (by decide)⟩

end Recovery

end CallFrame
