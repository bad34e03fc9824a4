import CallFrame.Proofs.PlacelessReading
import CallFrame.Proofs.SectionWalk
import CallFrame.Proofs.StoredNumbers

/-!
The two forms of an entry. Its length is written in 32 bits, or in 64 bits behind an escape, and with the
length the width of the id may change, and what the id is counted from. Whichever form an entry is written
in, and wherever it is, the same is read of it.
-/

namespace CallFrame

/-! Writing entries. -/
section Writing

def Endian.bytes : Endian → Nat → Nat → List UInt8
  | .little, width, n => littleBytes width n
  | .big, width, n => (littleBytes width n).reverse

inductive EntryRole where
  | common
  | function (cie : Nat)
deriving DecidableEq

def writtenIdWidth : SectionKind → Bool → Nat
  | .debugFrame, true => 8
  | .debugFrame, false | .ehFrame, _ => 4

def commonId : SectionKind → Bool → Nat
  | .ehFrame, _ => 0
  | .debugFrame, false => 0xffffffff
  | .debugFrame, true => 0xffffffffffffffff

namespace EntryRole

def isCommon : EntryRole → Bool
  | common => true
  | function _ => false

/-- The id that is written at `idOffset`. That of a function tells where its common entry is, from the
start of the section or back from the id itself. -/
def id (kind : SectionKind) (wide : Bool) (idOffset : Nat) : EntryRole → Nat
  | common => commonId kind wide
  | function cie =>
    match kind with
    | .ehFrame => idOffset - cie
    | .debugFrame => cie

def InRange (kind : SectionKind) (wide : Bool) (idOffset : Nat) : EntryRole → Prop
  | common => True
  | function cie =>
    match kind with
    | .ehFrame => cie < idOffset ∧ idOffset - cie < 2 ^ 32
    | .debugFrame => cie < commonId .debugFrame wide

end EntryRole

def writtenLength (endian : Endian) (wide : Bool) (length : Nat) : List UInt8 :=
  if wide then endian.bytes 4 0xffffffff ++ endian.bytes 8 length else endian.bytes 4 length

def writtenEntry (endian : Endian) (kind : SectionKind) (wide : Bool) (offset : Nat) (role : EntryRole)
    (payload : List UInt8) : List UInt8 :=
  let width := writtenIdWidth kind wide
  writtenLength endian wide (width + payload.length) ++
    (endian.bytes width (role.id kind wide (offset + if wide then 12 else 4)) ++ payload)

structure Section.Holds (area : Section) (endian : Endian) (wide : Bool) (offset : Nat) (role : EntryRole)
    (payload : List UInt8) : Prop where
  written : ∃ before after, before.length = offset ∧
    area.data = before ++ (writtenEntry endian area.kind wide offset role payload ++ after)
  length : writtenIdWidth area.kind wide + payload.length < if wide then 2 ^ 64 else 0xffffffff
  id : role.InRange area.kind wide (offset + if wide then 12 else 4)

theorem bytes_length (endian : Endian) (width n : Nat) : (endian.bytes width n).length = width := by
  cases endian with
  | little => exact little_bytes_length width n
  | big => rw [Endian.bytes, List.length_reverse, little_bytes_length]

theorem value_bytes (endian : Endian) {width n : Nat} (fits : n < 256 ^ width) :
    endian.value (endian.bytes width n) = n := by
  have value : littleValue (littleBytes width n) = n := by
    rw [little_value_bytes, Nat.mod_eq_of_lt fits]
  cases endian with
  | little => exact value
  | big => rw [Endian.value, Endian.bytes, List.reverse_reverse, value]

theorem written_length_length (endian : Endian) (wide : Bool) (length : Nat) :
    (writtenLength endian wide length).length = lengthWidth wide := by
  cases wide
  · exact bytes_length endian 4 length
  · change (endian.bytes 4 0xffffffff ++ endian.bytes 8 length).length = 12
    rw [List.length_append, bytes_length, bytes_length]

theorem written_id_width (kind : SectionKind) (wide : Bool) : writtenIdWidth kind wide = idWidth kind wide := by
  cases kind <;> cases wide <;> rfl

theorem length_field_written (endian : Endian) {wide : Bool} {length : Nat}
    (fits : length < if wide then 2 ^ 64 else 0xffffffff) (rest : List UInt8) :
    lengthField endian (writtenLength endian wide length ++ rest) = .ok (wide, length) := by
  have first (n : Nat) (rest : List UInt8) :
      ¬ (endian.bytes 4 n ++ rest).length < 4 ∧ (endian.bytes 4 n ++ rest).take 4 = endian.bytes 4 n ∧
        (endian.bytes 4 n ++ rest).drop 4 = rest := by
    have size := bytes_length endian 4 n
    refine ⟨?_, List.take_left' size, List.drop_left' size⟩
    rw [List.length_append, size]
    omega
  unfold lengthField
  cases wide with
  | false =>
      obtain ⟨room, taken, -⟩ := first length rest
      have short : length < 0xffffffff := fits
      rw [writtenLength, if_neg Bool.false_ne_true, if_neg room, taken,
        value_bytes endian (Nat.lt_trans short (by decide)), if_pos (Nat.ne_of_lt short)]
  | true =>
      obtain ⟨room, taken, dropped⟩ := first 0xffffffff (endian.bytes 8 length ++ rest)
      have size := bytes_length endian 8 length
      have long : ¬ (endian.bytes 8 length ++ rest).length < 8 := by
        rw [List.length_append, size]
        omega
      rw [writtenLength, if_pos rfl, List.append_assoc, if_neg room, taken, dropped,
        value_bytes endian (by decide), if_neg (not_not_intro rfl), if_neg long, List.take_left' size,
        value_bytes endian fits]

theorem common_id_fits (kind : SectionKind) (wide : Bool) :
    commonId kind wide < 256 ^ writtenIdWidth kind wide := by
  cases kind <;> cases wide <;> decide

theorem id_fits (kind : SectionKind) (wide : Bool) (idOffset : Nat) (role : EntryRole)
    (inRange : role.InRange kind wide idOffset) :
    role.id kind wide idOffset < 256 ^ writtenIdWidth kind wide := by
  cases role with
  | common => exact common_id_fits kind wide
  | function cie =>
      cases kind with
      | ehFrame => exact inRange.2
      | debugFrame => exact Nat.lt_trans inRange (common_id_fits .debugFrame wide)

end Writing

/-! What is read of them. -/
section Headers

/-- The header has all that was written: what the entry is, where the common entry of a function is, the
payload, and the end. -/
structure EntryHeader.Tells (header : EntryHeader) (area : Section) (endian : Endian) (wide : Bool)
    (offset : Nat) (role : EntryRole) (payload : List UInt8) : Prop where
  place : header.offset = offset
  isCie : header.isCie area.kind = role.isCommon
  cieOffset : ∀ cie, role = .function cie → header.cieOffset area.kind = .ok cie
  body : header.body.data = payload
  order : header.body.endian = endian
  next : header.next = offset + (writtenEntry endian area.kind wide offset role payload).length

theorem is_cie_common (header : EntryHeader) (kind : SectionKind) :
    header.isCie kind = decide (header.id.toNat = commonId kind header.wide) := by
  have same (word : UInt64) : decide (header.id = word) = decide (header.id.toNat = word.toNat) :=
    decide_eq_decide.mpr UInt64.toNat_inj.symm
  rcases kind with _ | _
  · exact same 0
  · cases form : header.wide <;> simp only [EntryHeader.isCie, form]
    · exact same 0xffffffff
    · exact same 0xffffffffffffffff

/-- An id that was written says what the entry is, and what it points at. -/
theorem id_tells {header : EntryHeader} {kind : SectionKind} {role : EntryRole}
    (inRange : role.InRange kind header.wide header.idOffset)
    (id : header.id.toNat = role.id kind header.wide header.idOffset) :
    header.isCie kind = role.isCommon ∧ ∀ cie, role = .function cie → header.cieOffset kind = .ok cie := by
  rw [is_cie_common, id]
  cases role with
  | common => exact ⟨decide_eq_true rfl, by rintro cie ⟨⟩⟩
  | function cie =>
      refine ⟨decide_eq_false ?_, ?_⟩ <;> cases kind <;>
        simp only [EntryRole.InRange, EntryRole.id, commonId] at inRange id ⊢
      · omega
      · exact Nat.ne_of_lt inRange
      · rintro _ ⟨⟩
        rw [EntryHeader.cieOffset, if_pos (by omega), id]
        congr 1
        omega
      · rintro _ ⟨⟩
        rw [EntryHeader.cieOffset, id]

variable {area : Section} {endian : Endian} {wide : Bool} {offset : Nat} {role : EntryRole}
  {payload : List UInt8}

/-- Where an entry has been written, its length field is found, and behind that its id and its payload. -/
theorem written_content (holds : area.Holds endian wide offset role payload) :
    let width := idWidth area.kind wide
    let id := endian.bytes width (role.id area.kind wide (offset + lengthWidth wide))
    ∃ after, lengthField endian (area.data.drop offset) = .ok (wide, width + payload.length) ∧
      area.data.drop (offset + lengthWidth wide) = id ++ payload ++ after ∧
      area.data.length = offset + lengthWidth wide + (width + payload.length) + after.length := by
  intro width id
  obtain ⟨⟨before, after, rfl, data⟩, fits, -⟩ := holds
  have fieldSize := written_length_length endian wide (width + payload.length)
  have idSize : id.length = width := bytes_length endian _ _
  have whole : area.data = before ++ (writtenLength endian wide (width + payload.length) ++
      (id ++ payload) ++ after) := by
    rw [data, writtenEntry, written_id_width]
    rfl
  rw [written_id_width] at fits
  have shape : area.data.drop before.length =
      writtenLength endian wide (width + payload.length) ++ (id ++ payload ++ after) := by
    rw [whole, List.drop_left, List.append_assoc]
  refine ⟨after, ?_, ?_, ?_⟩
  · rw [shape, length_field_written endian fits]
  · rw [← List.drop_drop, shape, List.drop_left' fieldSize]
  · rw [whole]
    simp only [List.length_append, fieldSize, idSize]
    omega

theorem header_written (holds : area.Holds endian wide offset role payload) :
    ∃ header, area.header endian offset = .ok (some header) ∧
      header.Tells area endian wide offset role payload := by
  obtain ⟨after, field, content, size⟩ := written_content holds
  have positive : 0 < idWidth area.kind wide := by cases wide <;> cases area.kind <;> decide
  have eight : idWidth area.kind wide ≤ 8 := by cases wide <;> cases area.kind <;> decide
  have idSize (n : Nat) := bytes_length endian (idWidth area.kind wide) n
  have fits := id_fits area.kind wide _ role holds.id
  rw [written_id_width] at fits
  refine ⟨area.headerAt endian offset wide (idWidth area.kind wide + payload.length), ?_, ?_⟩
  · rw [header_eq area endian offset (by omega), field]
    dsimp only
    rw [if_neg (by omega), if_neg (by omega), if_neg (by omega)]
  have id : (area.headerAt endian offset wide (idWidth area.kind wide + payload.length)).id.toNat =
      role.id area.kind wide (offset + lengthWidth wide) := by
    simp only [Section.headerAt, content, List.append_assoc, List.take_left' (idSize _)]
    rw [value_to_word endian _ (by rw [idSize]; exact eight)]
    exact value_bytes endian fits
  obtain ⟨isCie, cieOffset⟩ := id_tells holds.id id
  refine ⟨rfl, isCie, cieOffset, ?_, rfl, ?_⟩
  · simp only [Section.headerAt, content]
    rw [List.take_left' (by rw [List.length_append, idSize]), List.drop_left' (idSize _)]
  · simp only [Section.headerAt, writtenEntry, written_id_width, List.length_append, idSize,
      written_length_length]
    omega

end Headers

/-! The forms agree. -/
section Agreement

/-- What is read of one entry behind two headers. Parsing succeeds or fails alike, and comes to the same but
for the offsets that are noted, unless a pointer that is read is placed. -/
structure ReadAlike (layout : Layout) (area area' : Section) (role : EntryRole)
    (header header' : EntryHeader) : Prop where
  common : role = .common →
    (∀ encoding ∈ cieEncodings area layout header.body, encoding.Unplaced) →
    Alike (fun cie cie' => cie.placeless = cie'.placeless) (header.cie area layout)
      (header'.cie area' layout)
  notCommon : ∀ cie, role = .function cie →
    header.cie area layout = .error (.notACie header.offset) ∧
      header'.cie area' layout = .error (.notACie header'.offset)
  function : ∀ cie cie', cie.placeless = cie'.placeless →
    (∀ encoding ∈ cie.functionEncodings, encoding.Unplaced) →
    Alike (fun fde fde' => fde.placeless = fde'.placeless) (header.fde cie area layout)
      (header'.fde cie' area' layout)

/-- An entry that is written in two forms, in sections of one kind, has headers that tell the same, and the
contents behind them are read alike. -/
theorem entry_forms_agree (layout : Layout) (area area' : Section) (kind : area'.kind = area.kind)
    (wide wide' : Bool) (offset offset' : Nat) (role : EntryRole) (payload : List UInt8)
    (one : area.Holds layout.endian wide offset role payload)
    (other : area'.Holds layout.endian wide' offset' role payload) :
    ∃ header header', area.header layout.endian offset = .ok (some header) ∧
      area'.header layout.endian offset' = .ok (some header') ∧
      header.Tells area layout.endian wide offset role payload ∧
      header'.Tells area' layout.endian wide' offset' role payload ∧
      ReadAlike layout area area' role header header' := by
  obtain ⟨header, found, tells⟩ := header_written one
  obtain ⟨header', found', tells'⟩ := header_written other
  have same : header.body.SameBytes header'.body :=
    ⟨tells'.body.trans tells.body.symm, tells'.order.trans tells.order.symm⟩
  refine ⟨header, header', found, found', tells, tells', ?_, ?_, ?_⟩
  · rintro rfl unplaced
    rw [EntryHeader.cie, EntryHeader.cie, tells.isCie, tells'.isCie]
    exact (read_cie_abreast header.offset header'.offset kind layout same unplaced).1
  · rintro cie rfl
    rw [EntryHeader.cie, EntryHeader.cie, tells.isCie, tells'.isCie]
    exact ⟨rfl, rfl⟩
  · intro cie cie' alike unplaced
    have elsewhere : (area.bases layout).Elsewhere (area'.bases layout) := rfl
    exact (read_fde_floats header.offset header'.offset alike elsewhere unplaced _ _ same).1

def personalPayload : List UInt8 :=
  [1, 0x7a, 0x50, 0x4c, 0x52, 0x53, 0, 1, 0x78, 0x10, 11, 0x00, 0x00, 0x50, 0, 0, 0, 0, 0, 0, 0x00, 0x03, 0, 0]

def narrowSection : Section where
  kind := .ehFrame
  data := [28, 0, 0, 0, 0, 0, 0, 0] ++ personalPayload
  address := 0

def wideSection : Section where
  kind := .ehFrame
  data := [0, 0, 0, 0xff, 0xff, 0xff, 0xff, 28, 0, 0, 0, 0, 0, 0, 0, 0, 0, 0, 0] ++ personalPayload
  address := 0x1000

theorem entry_forms_agree_personality :
    narrowSection.Holds .little false 0 .common personalPayload ∧
      wideSection.Holds .little true 3 .common personalPayload ∧
      (narrowSection.cie {} 0).isOk ∧
      Alike (fun cie cie' => cie.placeless = cie'.placeless) (narrowSection.cie {} 0)
        (wideSection.cie {} 3) := by
  have one : narrowSection.Holds .little false 0 .common personalPayload :=
    ⟨⟨[], [], rfl, by decide +kernel⟩, by decide, trivial⟩
  have other : wideSection.Holds .little true 3 .common personalPayload :=
    ⟨⟨[0, 0, 0], [], rfl, by decide +kernel⟩, by decide, trivial⟩
  obtain ⟨header, header', found, found', -, -, alike⟩ :=
    entry_forms_agree {} narrowSection wideSection rfl false true 0 3 .common personalPayload one other
  have read : narrowSection.cie {} 0 = header.cie narrowSection {} := by
    rw [Section.cie, found]
    rfl
  have read' : wideSection.cie {} 3 = header'.cie wideSection {} := by
    rw [Section.cie, found']
    rfl
  have known : narrowSection.header .little 0 = .ok (some (narrowSection.headerAt .little 0 false 28)) := rfl
  have unplaced : ∀ encoding ∈ cieEncodings narrowSection {} header.body, encoding.Unplaced := by
    cases found.symm.trans known
    decide +kernel
  refine ⟨one, other, by decide +kernel, ?_⟩
  rw [read, read']
  exact alike.common rfl unplaced

end Agreement

end CallFrame
