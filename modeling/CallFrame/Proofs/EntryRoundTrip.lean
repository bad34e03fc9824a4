import CallFrame.Assembler
import CallFrame.Proofs.GroupNumbers

/-!
Reading back what is behind the header of an assembled entry. A field that was written is read as it
was, whatever stands behind it, so an entry is read back field by field.
-/

namespace CallFrame

/-! Steps that read bytes back, whatever follows them. -/
section Reads

/-- At an offset of a little-endian section the step reads just these bytes and answers the value.
-/
def Reads (offset : Nat) (read : ReadM α) (bytes : List UInt8) (value : α) : Prop :=
  ∀ rest, read.run ⟨bytes ++ rest, offset, .little⟩ =
    (.ok value, ⟨rest, offset + bytes.length, .little⟩)

variable {offset : Nat}

theorem reads_pure (value : α) : Reads offset (pure value : ReadM α) [] value :=
  fun _ => rfl

theorem run_reads {read : ReadM α} {bytes : List UInt8} {value : α}
    (reads : Reads offset read bytes value) (follow : α → ReadM β) (rest : List UInt8) :
    (read >>= follow).run ⟨bytes ++ rest, offset, .little⟩ =
      (follow value).run ⟨rest, offset + bytes.length, .little⟩ := by
  rw [ReadM.run_bind, reads]

theorem reads_bind {read : ReadM α} {bytes : List UInt8} {value : α} {follow : α → ReadM β}
    {bytes' : List UInt8} {value' : β} (first : Reads offset read bytes value)
    (second : Reads (offset + bytes.length) (follow value) bytes' value') :
    Reads offset (read >>= follow) (bytes ++ bytes') value' := by
  intro rest
  rw [List.append_assoc, run_reads first, second, List.length_append, Nat.add_assoc]

theorem reads_map {read : ReadM α} {bytes : List UInt8} {value : α} (change : α → β)
    (reads : Reads offset read bytes value) :
    Reads offset (change <$> read) bytes (change value) := by
  rw [map_eq_pure_bind, ← List.append_nil bytes]
  exact reads_bind reads (reads_pure _)

theorem reads_bytes (bytes : List UInt8) : Reads offset (readBytes bytes.length) bytes bytes := by
  intro rest
  have enough : ¬ (bytes ++ rest).length < bytes.length := by simp
  rw [read_bytes_run, if_neg enough, advance_append, List.take_left]

theorem reads_byte (b : UInt8) : Reads offset readByte [b] b :=
  fun _ => rfl

theorem reads_word (width n : Nat) :
    Reads offset (readWord width) (littleBytes width n) (n % 256 ^ width).toUInt64 := by
  intro rest
  have length := little_bytes_length width n
  have enough : ¬ (littleBytes width n ++ rest).length < width := by
    rw [List.length_append, length]
    omega
  rw [read_word_run, if_neg enough]
  simp [Cursor.advance, Endian.value, length, List.take_left', List.drop_left', little_value_bytes]

theorem reads_fitting (width n : Nat) (fits : n < 256 ^ width) :
    Reads offset (readWord width) (littleBytes width n) n.toUInt64 := by
  have word : Reads offset (readWord width) _ _ := reads_word width n
  rwa [Nat.mod_eq_of_lt fits] at word

theorem reads_leb {decoder : List UInt8 → Except Leb128.Defect α × List UInt8} {tooLarge : Fault}
    {bytes : List UInt8} {value : α}
    (decodes : ∀ rest, decoder (bytes ++ rest) = (.ok value, rest)) :
    Reads offset (readLeb decoder tooLarge) bytes value := by
  intro rest
  rw [← advance_append]
  exact read_leb_groups tooLarge rfl (decodes rest)

theorem reads_unsigned (n : UInt64) : Reads offset readUnsigned (Leb128.ofUInt64 n) n :=
  reads_leb fun rest => Leb128.unsigned_of_uint64 n rest

theorem reads_signed (n : Int64) : Reads offset readSigned (Leb128.ofInt64 n) n :=
  reads_leb fun rest => Leb128.signed_of_int64 n rest

theorem reads_block (bytes : List UInt8) (short : bytes.length < 2 ^ 64) :
    Reads offset readBlock (Assembler.block bytes) bytes := by
  have length := word_nat bytes.length short
  have written : Leb128.ofNat bytes.length = Leb128.ofUInt64 bytes.length.toUInt64 := by
    rw [Leb128.ofUInt64, length]
  rw [Assembler.block, written]
  apply reads_bind (reads_unsigned _)
  rw [length]
  exact reads_bytes bytes

/-- A step that is done in a block of the section reads the whole block. -/
theorem reads_in_block {read : ReadM α} {bytes : List UInt8} {value : α}
    (short : bytes.length < 2 ^ 64) (reads : ∀ offset, Reads offset read bytes value) :
    Reads offset (readInBlock read) (Assembler.block bytes) value := by
  intro rest
  rw [readInBlock, ReadM.run_bind, reads_block bytes short]
  dsimp only
  rw [ReadM.run_bind, ReadM.run_get]
  dsimp only
  have inside := reads (offset + (Assembler.block bytes).length - bytes.length) []
  rw [List.append_nil] at inside
  rw [ReadM.value, inside]
  rfl

/-- A character that UTF-8 stores in one byte, and that does not end a text. -/
abbrev Plain (c : Char) : Prop := 0 < c.toNat ∧ c.toNat < 128

theorem plain_encoded {c : Char} (plain : Plain c) :
    ∃ b : UInt8, String.utf8EncodeChar c = [b] ∧ b.toNat = c.toNat := by
  refine ⟨c.toNat.toUInt8, ?_, ?_⟩
  · have short : c.val.toNat ≤ 127 := Nat.le_of_lt_succ plain.2
    rw [String.utf8EncodeChar, if_pos short]
    rfl
  · exact byte_nat c.toNat (plain.2.trans (by decide))

theorem plain_decoded (letters : List Char) (plain : ∀ c ∈ letters, Plain c) (pos : Nat) :
    Utf8.decodeFrom pos none (letters.flatMap String.utf8EncodeChar) = .ok letters := by
  induction letters generalizing pos with
  | nil => rfl
  | cons c rest ih =>
      obtain ⟨b, encoded, same⟩ := plain_encoded (plain c List.mem_cons_self)
      have ascii : b < 0x80 := by
        rw [UInt8.lt_iff_toNat_lt, same]
        exact (plain c List.mem_cons_self).2
      rw [List.flatMap_cons, encoded, List.singleton_append, Utf8.decodeFrom, if_pos ascii,
        ih fun other member => plain other (List.mem_cons_of_mem c member)]
      rw [same]
      simp [Except.map, Char.ofNat_toNat]

theorem reads_text (text : String) (plain : ∀ c ∈ text.toList, Plain c) :
    Reads offset readText (text.toList.flatMap String.utf8EncodeChar ++ [0]) text := by
  have unended : ∀ b ∈ text.toList.flatMap String.utf8EncodeChar, b ≠ 0 := by
    intro b member
    obtain ⟨c, inside, byte⟩ := List.mem_flatMap.mp member
    obtain ⟨b', encoded, same⟩ := plain_encoded (plain c inside)
    rw [encoded, List.mem_singleton] at byte
    subst byte
    rintro rfl
    exact absurd same (Nat.ne_of_lt (plain c inside).1)
  have decoded := plain_decoded text.toList plain 0
  generalize text.toList.flatMap String.utf8EncodeChar = bytes at *
  intro rest
  have taken : (bytes ++ [0] ++ rest).takeWhile (· ≠ 0) = bytes := by
    rw [List.append_assoc, List.takeWhile_append_of_pos (by simpa using unended)]
    simp
  have ended : bytes.length ≠ (bytes ++ [0] ++ rest).length := by simp
  rw [readText, ReadM.run_bind, ReadM.run_get]
  simp only [taken, if_neg ended]
  have skipped : Reads offset (discard (readBytes (bytes.length + 1))) (bytes ++ [0]) () := by
    have read : Reads offset (readBytes _) (bytes ++ [0]) (bytes ++ [0]) := reads_bytes _
    rw [List.length_append] at read
    exact reads_map (fun _ => ()) read
  rw [ReadM.run_bind, skipped]
  simp only [Utf8.decode, decoded, Except.map]
  rw [String.ofList_toList]
  rfl

end Reads

/-! The addresses of a function. -/
section Addresses

variable {offset : Nat} {bases : PointerBases}

abbrev Small (word : UInt64) : Prop := -2 ^ 31 ≤ word.toInt64.toInt ∧ word.toInt64.toInt < 2 ^ 31

theorem signed_word (word : UInt64) :
    word.toInt64.toInt =
      if 2 * word.toNat < 2 ^ 64 then (word.toNat : Int) else word.toNat - 2 ^ 64 :=
  BitVec.toInt_eq_toNat_cond _

theorem small_of_lt {word : UInt64} (short : word.toNat < 2 ^ 31) : Small word := by
  rw [Small, signed_word]
  split <;> omega

theorem small_extends (word : UInt64) (small : Small word) :
    (word.toNat % 256 ^ 4).toUInt64.toUInt32.toInt32.toInt64.toUInt64 = word := by
  have half : (word.toNat % 256 ^ 4).toUInt64.toUInt32.toNat = word.toNat % 2 ^ 32 := by
    rw [UInt64.toNat_toUInt32, Nat.toUInt64, UInt64.toNat_ofNat']
    omega
  have lower : (word.toNat % 256 ^ 4).toUInt64.toUInt32.toInt32.toInt =
      if 2 * (word.toNat % 2 ^ 32) < 2 ^ 32 then ((word.toNat % 2 ^ 32 : Nat) : Int)
        else (word.toNat % 2 ^ 32 : Nat) - 2 ^ 32 := by
    rw [← half]
    exact BitVec.toInt_eq_toNat_cond _
  have same : (word.toNat % 256 ^ 4).toUInt64.toUInt32.toInt32.toInt64 = word.toInt64 := by
    rw [← Int64.toInt_inj, Int32.toInt_toInt64, lower, signed_word]
    obtain ⟨least, most⟩ := small
    rw [signed_word] at least most
    have bound := word.toNat_lt
    split at least <;> split <;> omega
  rw [same]
  rfl

theorem reads_pointer {encoding : Encoding} {application : PointerApplication}
    {format : PointerFormat} {base value : UInt64} {bytes : List UInt8}
    (named : encoding ≠ .omitted) (direct : encoding.isIndirect = false)
    (applied : encoding.application = .ok application) (unaligned : application ≠ .aligned)
    (stored : encoding.format = .ok format)
    (based : bases.base (bases.sectionAddress + offset.toUInt64) application = .ok base)
    (reads : Reads offset (readFormat 8 format) bytes value) :
    Reads offset (readPointer encoding 8 bases) bytes (some (base + value)) := by
  intro rest
  unfold readPointer
  rw [if_neg named, direct, applied, stored]
  simp only [Bool.false_eq_true, if_false, if_neg unaligned, ReadM.lift_ok, pure_bind]
  rw [ReadM.run_bind, ReadM.run_get]
  dsimp only
  rw [based, ReadM.lift_ok, ReadM.run_bind, reads]
  rfl

theorem reads_required {absent : Fault} {encoding : Encoding} {size : UInt8} {bytes : List UInt8}
    {value : UInt64} (reads : Reads offset (readPointer encoding size bases) bytes (some value)) :
    Reads offset (readRequired absent encoding size bases) bytes value := by
  rw [← List.append_nil bytes]
  exact reads_bind reads (reads_pure value)

theorem reads_absolute {absent : Fault} {encoding : Encoding} {format : PointerFormat}
    {bytes : List UInt8} {value : UInt64} (named : encoding ≠ .omitted)
    (direct : encoding.isIndirect = false) (applied : encoding.application = .ok .absolute)
    (stored : encoding.format = .ok format)
    (reads : Reads offset (readFormat 8 format) bytes value) :
    Reads offset (readRequired absent encoding 8 bases) bytes value := by
  have pointer : Reads offset (readPointer encoding 8 bases) bytes (some (0 + value)) :=
    reads_pointer named direct applied (by decide) stored rfl reads
  rw [UInt64.zero_add] at pointer
  exact reads_required pointer

theorem reads_whole (n : UInt64) :
    Reads offset (readFormat 8 .address) (littleBytes 8 n.toNat) n := by
  have word : Reads offset (readWord 8) _ _ := reads_fitting 8 n.toNat n.toNat_lt
  rwa [Nat.toUInt64, UInt64.ofNat_toNat] at word

theorem reads_half {n : UInt64} (short : n.toNat < 2 ^ 32) :
    Reads offset (readFormat 8 .udata4) (littleBytes 4 n.toNat) n := by
  have word : Reads offset (readWord 4) _ _ := reads_fitting 4 n.toNat short
  rwa [Nat.toUInt64, UInt64.ofNat_toNat] at word

theorem reads_signed_half {n : UInt64} (small : Small n) :
    Reads offset (readFormat 8 .sdata4) (littleBytes 4 n.toNat) n := by
  have word : Reads offset ((·.toUInt32.toInt32.toInt64.toUInt64) <$> readWord 4) _ _ :=
    reads_map _ (reads_word 4 n.toNat)
  rw [small_extends n small, map_eq_pure_bind] at word
  exact word

/-- Whether an encoding can be written and has room for the addresses of a function whose first
address is stored at `field`. -/
inductive AddressesFit (field start length : UInt64) : UInt8 → Prop
  | whole : AddressesFit field start length 0x00
  | half (start_fits : start.toNat < 2 ^ 32) (length_fits : length.toNat < 2 ^ 32) :
      AddressesFit field start length 0x03
  | relative (start_fits : Small (start - field)) (length_fits : length.toNat < 2 ^ 31) :
      AddressesFit field start length 0x1b

theorem addresses_written {encoding : UInt8} {field start length : UInt64}
    (fits : AddressesFit field start length encoding) :
    ∃ addresses, Assembler.addresses encoding field start length = .ok addresses := by
  cases fits <;> exact ⟨_, rfl⟩

/-- The stored fields of the addresses are read back as the addresses. -/
theorem addresses_read {encoding : UInt8} {start length : UInt64}
    (fits : AddressesFit (bases.sectionAddress + offset.toUInt64) start length encoding) :
    ∃ first second,
      Assembler.addresses encoding (bases.sectionAddress + offset.toUInt64) start length =
        .ok (first ++ second) ∧
      Reads offset (readRequired .omittedLocation ⟨encoding⟩ 8 bases) first start ∧
      ∀ behind, Reads behind
        (readRequired .omittedRange (Encoding.formatOnly ⟨encoding⟩) 8 bases) second length := by
  cases fits with
  | whole =>
      exact ⟨_, _, rfl, reads_absolute (by decide) rfl rfl rfl (reads_whole start),
        fun _ => reads_absolute (by decide) rfl rfl rfl (reads_whole length)⟩
  | half start_fits length_fits =>
      exact ⟨_, _, rfl, reads_absolute (by decide) rfl rfl rfl (reads_half start_fits),
        fun _ => reads_absolute (by decide) rfl rfl rfl (reads_half length_fits)⟩
  | relative start_fits length_fits =>
      refine ⟨_, _, rfl, ?_, fun _ => reads_absolute (by decide) rfl rfl rfl
        (reads_signed_half (small_of_lt length_fits))⟩
      have stored : Reads offset (readFormat 8 .sdata4) _ _ := reads_signed_half start_fits
      have pointer : Reads offset (readPointer ⟨0x1b⟩ 8 bases) _ _ :=
        reads_pointer (by decide) rfl rfl (by decide) rfl rfl stored
      have back (field : UInt64) : field + (start - field) = start := by
        rw [UInt64.add_comm, UInt64.sub_add_cancel]
      rw [back] at pointer
      exact reads_required pointer

end Addresses

/-! Common entries. -/
section Common

structure CieSpec.Fits (spec : CieSpec) (kind : SectionKind) : Prop where
  version : spec.version = 1 ∨ spec.version = 3 ∨ spec.version = 4 ∧ kind = .debugFrame
  augmentation : spec.augmentation.toList = [] ∨
    ∃ letters, spec.augmentation.toList = 'z' :: letters ∧ ∀ c ∈ letters, c = 'R' ∨ c = 'S'
  fdeEncoding : spec.fdeEncoding = 0x00 ∨ spec.fdeEncoding = 0x03 ∨ spec.fdeEncoding = 0x1b
  codeAlignment : spec.codeAlignment ≠ 0
  dataAlignment : spec.dataAlignment ≠ 0
  returnColumn : spec.version = 1 → spec.returnColumn < 256

def CieSpec.announced (spec : CieSpec) : Option Augmentation :=
  if spec.hasLength then some {
    fdeEncoding := if spec.augmentation.toList.contains 'R' then some ⟨spec.fdeEncoding⟩ else none
    signalFrame := spec.augmentation.toList.contains 'S' }
  else none

def CieSpec.entry (spec : CieSpec) (offset programOffset padding : Nat) : Cie where
  offset := offset
  version := spec.version
  augmentationText := spec.augmentation
  augmentation := spec.announced
  addressSize := 8
  codeAlignment := spec.codeAlignment
  dataAlignment := spec.dataAlignment
  returnColumn := spec.returnColumn
  program := spec.program ++ List.replicate padding 0
  programOffset := programOffset

variable {spec : CieSpec} {kind : SectionKind} {offset : Nat} {layout : Layout}

theorem supports_version (fits : spec.Fits kind) : kind.supports spec.version = true := by
  rcases fits.version with same | same | ⟨same, rfl⟩
  · rw [same]; cases kind <;> rfl
  · rw [same]; cases kind <;> rfl
  · rw [same]; rfl

theorem augmentation_plain (fits : spec.Fits kind) : ∀ c ∈ spec.augmentation.toList, Plain c := by
  intro c member
  rcases fits.augmentation with empty | ⟨letters, text, known⟩
  · rw [empty] at member
    cases member
  · rw [text, List.mem_cons] at member
    rcases member with rfl | member
    · decide
    · rcases known c member with rfl | rfl <;> decide

theorem skips_nothing (fits : spec.Fits kind) : skipOldest spec.augmentation layout = pure () := by
  rw [skipOldest, if_neg]
  rcases fits.augmentation with empty | ⟨letters, text, -⟩
  · rw [empty]
    decide
  · rw [text]
    simp

theorem reads_address_size (size : layout.addressSize = 8) :
    Reads offset (readAddressSize spec.version layout)
      (if spec.version = 4 then [8, 0] else []) 8 := by
  rw [readAddressSize]
  split
  · exact reads_bind (reads_byte 8) (reads_bind (reads_byte 0) (reads_pure 8))
  · rw [size]
    exact reads_pure 8

theorem reads_factors (fits : spec.Fits kind) :
    Reads offset readFactors
      (Leb128.ofUInt64 spec.codeAlignment ++ Leb128.ofInt64 spec.dataAlignment)
      (spec.codeAlignment, spec.dataAlignment) := by
  refine reads_bind (reads_unsigned _) ?_
  rw [if_neg fits.codeAlignment, ← List.append_nil (Leb128.ofInt64 _)]
  refine reads_bind (reads_signed _) ?_
  rw [if_neg fits.dataAlignment]
  exact reads_pure _

theorem reads_return_column (fits : spec.Fits kind) :
    Reads offset (readReturnColumn spec.version)
      (if spec.version = 1 then [spec.returnColumn.toUInt8] else Leb128.ofUInt64 spec.returnColumn)
      spec.returnColumn := by
  rw [readReturnColumn]
  split
  · next first =>
    have read : Reads offset (UInt8.toUInt64 <$> readByte) _ _ :=
      reads_map _ (reads_byte spec.returnColumn.toUInt8)
    have below : spec.returnColumn.toNat < 256 := fits.returnColumn first
    have same : spec.returnColumn.toUInt8.toUInt64 = spec.returnColumn := by
      rw [← UInt64.toNat_inj, UInt8.toNat_toUInt64, UInt64.toNat_toUInt8]
      omega
    rwa [same] at read
  · exact reads_unsigned _

/-- Each letter reads its own encoding, and the letters together keep the last one and the mark. -/
theorem reads_letters (bases : PointerBases) (letters : List Char)
    (known : ∀ c ∈ letters, c = 'R' ∨ c = 'S') (encoding : UInt8) (aug : Augmentation)
    (offset : Nat) :
    Reads offset (readAugmentation 8 bases letters aug)
      (letters.filterMap fun letter => if letter = 'R' then some encoding else none)
      { aug with
        fdeEncoding := if letters.contains 'R' then some ⟨encoding⟩ else aug.fdeEncoding
        signalFrame := letters.contains 'S' || aug.signalFrame } := by
  induction letters generalizing aug offset with
  | nil => exact reads_pure aug
  | cons letter letters ih =>
      have rest := ih fun c member => known c (List.mem_cons_of_mem letter member)
      rcases known letter List.mem_cons_self with rfl | rfl
      · have read : Reads offset (readAugmentation 8 bases ('R' :: letters) aug) _ _ :=
          reads_bind (reads_byte encoding) (rest { aug with fdeEncoding := some ⟨encoding⟩ } _)
        simpa using read
      · have read : Reads offset (readAugmentation 8 bases ('S' :: letters) aug) _ _ :=
          rest { aug with signalFrame := true } offset
        simpa using read

def CieSpec.fields (spec : CieSpec) : List UInt8 :=
  [spec.version] ++ ((spec.augmentation.toList.flatMap String.utf8EncodeChar ++ [0]) ++
  ((if spec.version = 4 then [8, 0] else []) ++
  ((Leb128.ofUInt64 spec.codeAlignment ++ Leb128.ofInt64 spec.dataAlignment) ++
  ((if spec.version = 1 then [spec.returnColumn.toUInt8] else Leb128.ofUInt64 spec.returnColumn) ++
  ((if spec.hasLength then Assembler.block spec.augmentationData else []) ++ spec.program)))))

theorem cie_content_eq (kind : SectionKind) (spec : CieSpec) :
    Assembler.cieContent kind spec = littleBytes 4 (Assembler.cieId kind) ++ spec.fields := by
  simp only [Assembler.cieContent, CieSpec.fields, List.append_assoc]

theorem reads_augmentation (fits : spec.Fits kind) (short : spec.fields.length < 2 ^ 64)
    (bases : PointerBases) :
    Reads offset (readAugmentationPart spec.augmentation 8 bases)
      (if spec.hasLength then Assembler.block spec.augmentationData else []) spec.announced := by
  rcases fits.augmentation with empty | ⟨letters, text, known⟩
  · have absent : spec.hasLength = false := by rw [CieSpec.hasLength, empty]; rfl
    rw [readAugmentationPart, CieSpec.announced, empty, absent]
    exact reads_pure none
  · have present : spec.hasLength = true := by rw [CieSpec.hasLength, text]; rfl
    have data : spec.augmentationData =
        letters.filterMap fun letter => if letter = 'R' then some spec.fdeEncoding else none := by
      rw [CieSpec.augmentationData, text]
      rfl
    rw [readAugmentationPart, CieSpec.announced, text, present]
    have inside : spec.augmentationData.length < 2 ^ 64 := by
      rw [CieSpec.fields, present] at short
      simp only [List.length_append, Assembler.block, if_true] at short
      omega
    have read : Reads offset (readInBlock (readAugmentation 8 bases letters {})) _ _ :=
      reads_in_block inside fun within => by
        rw [data]
        exact reads_letters bases letters known spec.fdeEncoding {} within
    simpa [List.contains_cons] using reads_map some read

/-- A common entry is read back as it was asked for. -/
theorem read_cie_back {area : Section} (fits : spec.Fits area.kind) (size : layout.addressSize = 8)
    (short : spec.fields.length < 2 ^ 64) (own padding : Nat) :
    ∃ programOffset, (readCie own area layout).value
        ⟨spec.fields ++ List.replicate padding 0, offset, .little⟩ =
      .ok (spec.entry own programOffset padding) := by
  rw [ReadM.value, readCie, CieSpec.fields, List.append_assoc, run_reads (reads_byte _),
    supports_version fits]
  simp only [Bool.not_true, Bool.false_eq_true, if_false]
  rw [List.append_assoc, run_reads (reads_text _ (augmentation_plain fits)), skips_nothing fits,
    pure_bind, List.append_assoc, run_reads (reads_address_size size), List.append_assoc,
    run_reads (reads_factors fits)]
  dsimp only
  rw [List.append_assoc, run_reads (reads_return_column fits), List.append_assoc,
    run_reads (reads_augmentation fits short _)]
  exact ⟨_, rfl⟩

end Common

/-! Functions. -/
section Functions

variable {spec : CieSpec} {kind : SectionKind} {offset : Nat} {bases : PointerBases}

theorem entry_fde_encoding (fits : spec.Fits kind) (own programOffset padding : Nat) :
    (spec.entry own programOffset padding).fdeEncoding = ⟨spec.effectiveEncoding⟩ := by
  rw [Cie.fdeEncoding, CieSpec.entry, CieSpec.announced, CieSpec.effectiveEncoding,
    CieSpec.hasLength]
  rcases fits.augmentation with empty | ⟨letters, text, -⟩
  · rw [empty]
    rfl
  · rw [text]
    by_cases stated : 'R' ∈ letters <;> simp [stated, Encoding.absolute]

theorem entry_signal_frame (fits : spec.Fits kind) (own programOffset padding : Nat) :
    (spec.entry own programOffset padding).isSignalFrame =
      spec.augmentation.toList.contains 'S' := by
  rw [Cie.isSignalFrame, CieSpec.entry, CieSpec.announced, CieSpec.hasLength]
  rcases fits.augmentation with empty | ⟨letters, text, -⟩
  · rw [empty]
    rfl
  · rw [text]
    simp

theorem reads_announced (bases : PointerBases) :
    Reads offset (readLsda 8 bases spec.announced)
      (if spec.hasLength then Assembler.block [] else []) none := by
  rw [CieSpec.announced]
  by_cases present : spec.hasLength
  · rw [if_pos present, if_pos present]
    exact reads_in_block (by decide) fun _ => reads_pure none
  · rw [if_neg present, if_neg present]
    exact reads_pure none

def CieSpec.fdeFields (spec : CieSpec) (addresses program : List UInt8) : List UInt8 :=
  addresses ++ ((if spec.hasLength then Assembler.block [] else []) ++ program)

/-- A function is read back as it was asked for, with the common entry that it was written for. -/
theorem read_fde_back {start length : UInt64} {addresses : List UInt8} (fits : spec.Fits kind)
    (room : AddressesFit (bases.sectionAddress + offset.toUInt64) start length
      spec.effectiveEncoding)
    (written : Assembler.addresses spec.effectiveEncoding
      (bases.sectionAddress + offset.toUInt64) start length = .ok addresses)
    (program : List UInt8) (own cieOffset cieProgram padding : Nat) :
    ∃ programOffset, (readFde own (spec.entry cieOffset cieProgram padding) bases).value
        ⟨spec.fdeFields addresses program, offset, .little⟩ =
      .ok { offset := own, cieOffset, start, length, lsda := none, program, programOffset } := by
  obtain ⟨first, second, stored, reads_start, reads_length⟩ := addresses_read room
  cases written.symm.trans stored
  rw [ReadM.value, readFde, entry_fde_encoding fits, CieSpec.fdeFields, List.append_assoc]
  simp only [CieSpec.entry]
  rw [run_reads reads_start, run_reads (reads_length _), run_reads (reads_announced _)]
  exact ⟨_, rfl⟩

end Functions

end CallFrame
