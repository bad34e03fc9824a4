import CallFrame.Proofs.Coverage
import CallFrame.Proofs.Decoding
import CallFrame.Proofs.PlacelessReading
import CallFrame.Proofs.TrueOffsets

/-!
The lengths of functions. Behind its first address an entry stores how many bytes of code its function has,
in the format of that address. A number of bytes has no sign, but the signed formats of two and four bytes
extend the highest bit of every number that they store. A length with that bit becomes a far larger one where
an address has room for it.
-/

namespace CallFrame

/-! Numbers of a fixed width. -/
section Formats

namespace PointerFormat

/-- How many bytes a number takes, in the formats where that does not depend on the number. -/
def width (size : UInt8) : PointerFormat → Option Nat
  | .address => some size.toNat
  | .udata2 | .sdata2 => some 2
  | .udata4 | .sdata4 => some 4
  | .udata8 | .sdata8 => some 8
  | .uleb128 | .sleb128 => none

def signed : PointerFormat → Bool
  | .sleb128 | .sdata2 | .sdata4 | .sdata8 => true
  | .address | .uleb128 | .udata2 | .udata4 | .udata8 => false

/-- What is added to a number that is stored in this format and width, so that it has its sign in all bits. -/
def extension (format : PointerFormat) (width stored : Nat) : Nat :=
  if format.signed ∧ 2 ^ (8 * width - 1) ≤ stored then 2 ^ 64 - 2 ^ (8 * width) else 0

/-- The number is read with a sign that an address of this size has room for. -/
def ReadsSign (format : PointerFormat) (size : UInt8) (width stored : Nat) : Prop :=
  format.signed ∧ 2 ^ (8 * width - 1) ≤ stored ∧ width < min size.toNat 8

instance (format : PointerFormat) (size : UInt8) (width stored : Nat) :
    Decidable (format.ReadsSign size width stored) :=
  inferInstanceAs (Decidable (_ ∧ _ ∧ _))

end PointerFormat

variable {format : PointerFormat} {size : UInt8} {width : Nat}

/-- The lowest bits of a word with their sign in all bits. -/
theorem sign_extended_word (bits stored : Nat) (narrow : bits ≤ 64) (short : stored < 2 ^ bits) :
    ((stored.toUInt64.toBitVec.setWidth bits).signExtend 64).toNat =
      stored + if 2 ^ (bits - 1) ≤ stored then 2 ^ 64 - 2 ^ bits else 0 := by
  have lower : stored.toUInt64.toBitVec.setWidth bits = BitVec.ofNat bits stored :=
    BitVec.setWidth_ofNat_of_le narrow stored
  have kept : (BitVec.ofNat bits stored).toNat = stored := Nat.mod_eq_of_lt short
  have wide : stored < 2 ^ 64 := Nat.lt_of_lt_of_le short (Nat.pow_le_pow_right (by decide) narrow)
  rw [lower, BitVec.toNat_signExtend, BitVec.toNat_setWidth, BitVec.msb_eq_decide, kept, Nat.mod_eq_of_lt wide]
  simp only [decide_eq_true_eq]

def PointerFormat.fromWord (word : UInt64) : PointerFormat → UInt64
  | .sdata2 => word.toUInt16.toInt16.toInt64.toUInt64
  | .sdata4 => word.toUInt32.toInt32.toInt64.toUInt64
  | _ => word

theorem fixed_read (fixed : format.width size = some width) {cursor rest : Cursor} {value : UInt64}
    (read : (readFormat size format).run cursor = (.ok value, rest)) :
    0 < width ∧ width ≤ 8 ∧
      ∃ word, (readWord width).run cursor = (.ok word, rest) ∧ value = format.fromWord word := by
  cases format with
  | address =>
      cases fixed
      change (readAddress size).run cursor = _ at read
      unfold readAddress at read
      split at read
      next known =>
        refine ⟨?_, ?_, value, read, rfl⟩ <;> rcases known with rfl | rfl | rfl <;> decide
      · cases read
  | udata2 | udata4 | udata8 | sdata8 =>
      cases fixed
      exact ⟨by decide, by decide, value, read, rfl⟩
  | sdata2 | sdata4 =>
      cases fixed
      obtain ⟨word, _, first, read⟩ := ReadM.run_bind_ok read
      cases read
      exact ⟨by decide, by decide, word, first, rfl⟩
  | uleb128 | sleb128 => cases fixed

theorem extension_plain {stored : Nat} (plain : format.signed = false) :
    format.extension width stored = 0 := by
  simp only [PointerFormat.extension, plain, Bool.false_eq_true, false_and, if_false]

theorem extension_signed {stored : Nat} (signed : format.signed = true) :
    format.extension width stored = if 2 ^ (8 * width - 1) ≤ stored then 2 ^ 64 - 2 ^ (8 * width) else 0 := by
  simp only [PointerFormat.extension, signed, true_and]

theorem narrow_word {stored : Nat} (narrow : width ≤ 8) (short : stored < 2 ^ (8 * width)) :
    stored.toUInt64.toNat = stored :=
  word_nat stored (Nat.lt_of_lt_of_le short (Nat.pow_le_pow_right (by decide) (by omega)))

theorem from_word_value (fixed : format.width size = some width) (narrow : width ≤ 8) {stored : Nat}
    (short : stored < 2 ^ (8 * width)) :
    (format.fromWord stored.toUInt64).toNat = stored + format.extension width stored := by
  have whole := narrow_word narrow short
  cases format with
  | address | udata2 | udata4 | udata8 =>
      rw [extension_plain rfl]
      exact whole
  | sdata2 =>
      cases fixed
      rw [extension_signed rfl]
      exact sign_extended_word 16 stored (by decide) short
  | sdata4 =>
      cases fixed
      rw [extension_signed rfl]
      exact sign_extended_word 32 stored (by decide) short
  | sdata8 =>
      -- the sign has no bits above it
      cases fixed
      rw [extension_signed rfl, show 2 ^ 64 - 2 ^ (8 * 8) = 0 from rfl, ite_self]
      exact whole
  | uleb128 | sleb128 => cases fixed

variable {area : Section} {endian : Endian} {here stop : Nat} (inside : stop ≤ area.data.length)

include inside

theorem field_lt (within : here + width ≤ stop) :
    endian.value (area.between here (here + width)) < 2 ^ (8 * width) := by
  have length : (area.between here (here + width)).length = width := by
    rw [between_length (Nat.le_trans within inside), Nat.add_sub_cancel_left]
  have bound := value_lt endian (area.between here (here + width))
  rwa [length, show 256 = 2 ^ 8 from rfl, ← Nat.pow_mul] at bound

theorem word_in_window (some : 0 < width) {value : UInt64} {rest : Cursor}
    (read : (readWord width).run (area.window endian here stop) = (.ok value, rest)) :
    here + width ≤ stop ∧ value = (endian.value (area.between here (here + width))).toUInt64 := by
  have length : (area.window endian here stop).data.length = stop - here := between_length inside
  rw [read_word_run, length] at read
  split at read
  · cases read
  next long =>
    have within : here + width ≤ stop := by omega
    cases read
    exact ⟨within, congrArg (fun bytes => (endian.value bytes).toUInt64) (between_take within)⟩

/-- A number of a fixed width is that of its bytes, with its sign extended if it has one. -/
theorem fixed_in_window (fixed : format.width size = some width) {value : UInt64} {rest : Cursor}
    (read : (readFormat size format).run (area.window endian here stop) = (.ok value, rest)) :
    width ≤ 8 ∧ here + width ≤ stop ∧
      value.toNat = endian.value (area.between here (here + width)) +
        format.extension width (endian.value (area.between here (here + width))) := by
  obtain ⟨some, narrow, word, stored, rfl⟩ := fixed_read fixed read
  obtain ⟨within, rfl⟩ := word_in_window inside some stored
  exact ⟨narrow, within, from_word_value fixed narrow (field_lt inside within)⟩

end Formats

/-! Lengths as they are stored, and as they are read. -/
section Lengths

/-- Behind the address where the function starts, the section stores this number in so many bytes. -/
def Section.StoresLength (area : Section) (endian : Endian) (layout : Layout) (cie : Cie) (start stop : Nat)
    (fde : Fde) (width stored : Nat) : Prop :=
  ∃ place, area.Pointer endian cie.addressSize (area.bases layout) cie.fdeEncoding start stop place
      (some fde.start) ∧
    place + width ≤ stop ∧ stored = endian.value (area.between place (place + width))

theorem format_only_format (encoding : Encoding) : encoding.formatOnly.format = encoding.format := by
  simp [Encoding.format, Encoding.formatOnly, UInt8.and_assoc]

theorem wrap_address_value (size : UInt8) (value : UInt64) :
    (wrapAddress size value).toNat = value.toNat % 2 ^ (8 * min size.toNat 8) := by
  have bound := value.toNat_lt
  unfold wrapAddress
  split
  next narrow =>
    have short : size.toNat ≤ 8 := Nat.le_of_lt (UInt8.lt_iff_toNat_lt.mp narrow)
    have count : addressCount size = 2 ^ (8 * size.toNat) := (Nat.pow_mul 2 8 size.toNat).symm
    rw [word_nat _ (Nat.lt_of_le_of_lt (Nat.mod_le _ _) bound), count, Nat.min_eq_left short]
  next wide =>
    have long : 8 ≤ size.toNat := Nat.le_of_not_lt fun narrow => wide (UInt8.lt_iff_toNat_lt.mpr narrow)
    rw [Nat.min_eq_right long, Nat.mod_eq_of_lt bound]

/-- The bits above an extended number are cut like those of the number, or some of them are left. -/
theorem extended_cut {bits width stored : Nat} (addressed : bits ≤ 64) (short : stored < 2 ^ width) :
    (stored + (2 ^ 64 - 2 ^ width)) % 2 ^ bits =
      if width < bits then stored + (2 ^ bits - 2 ^ width) else stored % 2 ^ bits := by
  have whole : 2 ^ bits ≤ 2 ^ 64 := Nat.pow_le_pow_right (by decide) addressed
  have words : 2 ^ bits ∣ 2 ^ 64 := Nat.pow_dvd_pow 2 addressed
  split
  next room =>
    have below : 2 ^ width < 2 ^ bits := Nat.pow_lt_pow_right (by decide) room
    obtain ⟨count, above⟩ : 2 ^ bits ∣ 2 ^ 64 - 2 ^ bits := Nat.dvd_sub words (Nat.dvd_refl _)
    have parts : stored + (2 ^ 64 - 2 ^ width) = stored + (2 ^ bits - 2 ^ width) + 2 ^ bits * count := by omega
    rw [parts, Nat.add_mul_mod_self_left, Nat.mod_eq_of_lt (by omega)]
  next cut =>
    obtain ⟨count, above⟩ : 2 ^ bits ∣ 2 ^ 64 - 2 ^ width :=
      Nat.dvd_sub words (Nat.pow_dvd_pow 2 (Nat.le_of_not_lt cut))
    rw [above, Nat.add_mul_mod_self_left]

def PointerFormat.readLength (format : PointerFormat) (size : UInt8) (width stored : Nat) : Nat :=
  if format.ReadsSign size width stored then stored + (2 ^ (8 * min size.toNat 8) - 2 ^ (8 * width))
  else stored % 2 ^ (8 * min size.toNat 8)

theorem PointerFormat.ReadsSign.room {format : PointerFormat} {size : UInt8} {width stored : Nat}
    (reads : format.ReadsSign size width stored) : 8 * width < 8 * min size.toNat 8 :=
  Nat.mul_lt_mul_of_pos_left reads.2.2 (by decide)

theorem extension_cut {format : PointerFormat} {size : UInt8} {width stored : Nat}
    (short : stored < 2 ^ (8 * width)) :
    (stored + format.extension width stored) % 2 ^ (8 * min size.toNat 8) =
      format.readLength size width stored := by
  by_cases reads : format.ReadsSign size width stored
  · rw [PointerFormat.readLength, if_pos reads, PointerFormat.extension, if_pos ⟨reads.1, reads.2.1⟩,
      extended_cut (by omega) short, if_pos reads.room]
  · rw [PointerFormat.readLength, if_neg reads, PointerFormat.extension]
    split
    next sign =>
      rw [extended_cut (by omega) short, if_neg fun wide => reads ⟨sign.1, sign.2, by omega⟩]
    next => rfl

theorem length_stored {area : Section} {endian : Endian} {layout : Layout} {cie : Cie} {fde : Fde}
    {start stop : Nat} (inside : stop ≤ area.data.length)
    (held : area.HoldsFde endian layout cie start stop fde) {format : PointerFormat} {width : Nat}
    (formatted : cie.fdeEncoding.format = .ok format) (fixed : format.width cie.addressSize = some width) :
    ∃ stored < 2 ^ (8 * width), area.StoresLength endian layout cie start stop fde width stored ∧
      width ≤ 8 ∧ fde.length.toNat = format.readLength cie.addressSize width stored := by
  obtain ⟨place, third, starts, reaches, -⟩ := held.pointers
  generalize fde.length = length at reaches ⊢
  cases reaches with
  | stored applied formatted' there read based =>
      rw [format_only_format, formatted] at formatted'
      rw [format_only_absolute] at applied
      cases formatted'
      cases applied
      cases there
      cases based
      obtain ⟨narrow, within, value⟩ := fixed_in_window inside fixed read
      have short := @field_lt width area endian place stop inside within
      refine ⟨_, short, ⟨place, starts, within, rfl⟩, narrow, ?_⟩
      rw [wrap_address_value, UInt64.zero_add, value, extension_cut short]

section Sign

variable {format : PointerFormat} {size : UInt8} {width stored : Nat} (short : stored < 2 ^ (8 * width))

include short

theorem unsigned_length_iff :
    format.readLength size width stored = stored % 2 ^ (8 * min size.toNat 8) ↔
      ¬ format.ReadsSign size width stored := by
  unfold PointerFormat.readLength
  split
  next reads =>
    have below : 2 ^ (8 * width) < 2 ^ (8 * min size.toNat 8) := Nat.pow_lt_pow_right (by decide) reads.room
    rw [Nat.mod_eq_of_lt (by omega)]
    exact ⟨fun same => by omega, fun plain => absurd reads plain⟩
  next plain => exact ⟨fun _ => plain, fun _ => rfl⟩

/-- A length with an extended sign is more than its bytes can hold. -/
theorem held_length_iff :
    format.readLength size width stored < 2 ^ (8 * width) ↔ ¬ format.ReadsSign size width stored := by
  unfold PointerFormat.readLength
  split
  next reads =>
    have double : 2 ^ (8 * width + 1) ≤ 2 ^ (8 * min size.toNat 8) := Nat.pow_le_pow_right (by decide) reads.room
    rw [Nat.pow_succ] at double
    exact ⟨fun held => by omega, fun plain => absurd reads plain⟩
  next plain => exact ⟨fun _ => plain, fun _ => Nat.lt_of_le_of_lt (Nat.mod_le _ _) short⟩

theorem stored_length_iff :
    format.readLength size width stored ≤ stored ↔ ¬ format.ReadsSign size width stored := by
  constructor
  · intro within
    exact (held_length_iff short).mp (Nat.lt_of_le_of_lt within short)
  · intro plain
    rw [(unsigned_length_iff short).mpr plain]
    exact Nat.mod_le _ _

end Sign

/-- The addresses that a function covers are so many, from its first one on, unless its code is longer and
more of it is there. -/
theorem covers_within_iff (f : CfiEntry) (count : Nat) :
    (∀ pc, f.Covers pc → pc.toNat < f.start.toNat + count) ↔
      f.fde.length.toNat ≤ count ∨ 2 ^ 64 - 1 ≤ f.start.toNat + count := by
  constructor
  · intro within
    by_contra beyond
    have next : (f.start.toNat + count).toUInt64.toNat = f.start.toNat + count := word_nat _ (by omega)
    have covered : f.Covers (f.start.toNat + count).toUInt64 := by
      rw [CfiEntry.Covers, UInt64.le_iff_toNat_le, next]
      omega
    have bound := within _ covered
    omega
  · rintro few pc ⟨-, covered⟩
    omega

end Lengths

/-- Let the addresses of a function be stored in a format of a fixed width, and a number in so many bytes behind
the first of them. That number is the length that is read, up to the width of an address, exactly if the format
has no sign that is set in the number and that an address has room for. Exactly then the length is one that the
bytes can hold; else all bits above it that an address has are set. A function that is indexed covers no more
addresses than the number says, exactly if that is so or there are no more before the last one. -/
theorem code_lengths_exact (area : Section) (endian : Endian) :
    (∀ offset header layout cie fde format width, area.header endian offset = .ok (some header) →
      header.fde cie area layout = .ok fde → cie.fdeEncoding.format = .ok format →
      PointerFormat.width cie.addressSize format = some width →
      ∃ stored < 2 ^ (8 * width),
        area.StoresLength endian layout cie header.body.offset header.next fde width stored ∧
        (fde.length = wrapAddress cie.addressSize stored.toUInt64 ↔
          ¬ format.ReadsSign cie.addressSize width stored) ∧
        (fde.length.toNat < 2 ^ (8 * width) ↔ ¬ format.ReadsSign cie.addressSize width stored) ∧
        (format.ReadsSign cie.addressSize width stored →
          fde.length.toNat = stored + (2 ^ (8 * min cie.addressSize.toNat 8) - 2 ^ (8 * width)))) ∧
    ∀ (module : LoadedModule), ∀ place ∈ module.index.1.places, ∃ f ∈ module.functions,
      module.index.1.entryOf place.item = some f ∧
      ∀ format width, f.cie.fdeEncoding.format = .ok format →
        PointerFormat.width f.cie.addressSize format = some width →
        ∃ home ∈ module.sections, ∃ header, home.header f.endian f.fde.offset = .ok (some header) ∧
          ∃ stored < 2 ^ (8 * width),
            home.StoresLength f.endian module.layout f.cie header.body.offset header.next f.fde width stored ∧
            ((∀ pc, place.item.covers pc = true → pc.toNat < place.item.low.toNat + stored) ↔
              ¬ format.ReadsSign f.cie.addressSize width stored ∨
                2 ^ 64 - 1 ≤ place.item.low.toNat + stored) := by
  constructor
  · intro offset header layout cie fde format width found read formatted fixed
    obtain ⟨stored, short, stores, narrow, length⟩ :=
      length_stored (header_stands found).inside (fde_held found read) formatted fixed
    refine ⟨stored, short, stores, ?_, ?_, fun reads => ?_⟩
    · rw [← UInt64.toNat_inj, wrap_address_value, narrow_word narrow short, length]
      exact unsigned_length_iff short
    · rw [length]
      exact held_length_iff short
    · rw [length, PointerFormat.readLength, if_pos reads]
  · intro module place member
    obtain ⟨f, indexed, stands⟩ := place_stands module place member
    refine ⟨f, indexed, entry_stands _ _ _ stands, fun format width formatted fixed => ?_⟩
    obtain ⟨home, loaded, -, -, header, here, held⟩ := function_stands indexed
    obtain ⟨stored, short, stores, -, length⟩ :=
      length_stored (header_stands here).inside held formatted fixed
    refine ⟨home, loaded, header, here, stored, short, stores, ?_⟩
    simp only [stands_covers _ _ f _ stands, decide_eq_true_eq, stands.low]
    rw [covers_within_iff, length, stored_length_iff short]

/-- The function of `jumpingSection` has its addresses in a signed format, but so little code that its length
has no sign. -/
theorem code_lengths_exact_jump :
    let header := jumpingSection.headerAt .little 26 false 20
    jumpingSection.header .little 26 = .ok (some header) ∧
      header.fde jumpingCie jumpingSection {} = .ok jumpingFde ∧
      jumpingCie.fdeEncoding.format = .ok .sdata4 ∧ PointerFormat.width 8 .sdata4 = some 4 ∧
      jumpingSection.StoresLength .little {} jumpingCie 34 50 jumpingFde 4 0x100 := by
  intro header
  have found : jumpingSection.header .little 26 = .ok (some header) := rfl
  have read : header.fde jumpingCie jumpingSection {} = .ok jumpingFde := rfl
  have formatted : jumpingCie.fdeEncoding.format = .ok .sdata4 := rfl
  obtain ⟨stored, short, stores, same, held, -⟩ := (code_lengths_exact jumpingSection .little).1
    26 header {} jumpingCie jumpingFde .sdata4 4 found read formatted rfl
  have length : (0x100 : UInt64) = wrapAddress 8 stored.toUInt64 := same.mpr (held.mp (by decide))
  have word : stored = 0x100 := word_eq (Nat.lt_trans short (by decide)) length.symm
  exact ⟨found, read, formatted, rfl, word ▸ stores⟩

/-- Two functions that follow each other. The last one in the section is the first one in memory, and has two
gigabytes of code. -/
def longCode : Section where
  kind := .ehFrame
  address := 0x2000
  data := [
    0x10, 0, 0, 0, 0, 0, 0, 0, 1, 0x7a, 0x52, 0, 1, 0x78, 0x10, 1, 0x1b, 0x0c, 7, 8,
    0x10, 0, 0, 0, 0x18, 0, 0, 0, 0xe4, 0xef, 0xff, 0x7f, 0, 1, 0, 0, 0, 0, 0, 0,
    0x10, 0, 0, 0, 0x2c, 0, 0, 0, 0xd0, 0xef, 0xff, 0xff, 0, 0, 0, 0x80, 0, 0, 0, 0]

def longCie : Cie where
  offset := 0
  version := 1
  augmentationText := "zR"
  augmentation := some { fdeEncoding := some ⟨0x1b⟩ }
  addressSize := 8
  codeAlignment := 1
  dataAlignment := -8
  returnColumn := 16
  program := [0x0c, 7, 8]
  programOffset := 17

-- Its length is stored as 0x80000000, which four bytes hold, and is read with a sign. So the function is found
-- for the first address of the next one, and for addresses that no function has.
theorem long_code_covers_others :
    let header := longCode.headerAt .little 40 false 16
    let module : LoadedModule := { name := "m", ehFrame := some longCode }
    longCode.header .little 40 = .ok (some header) ∧
      (∃ fde, header.fde longCie longCode {} = .ok fde ∧
        longCode.StoresLength .little {} longCie 48 60 fde 4 0x80000000 ∧
        fde.length ≠ wrapAddress 8 0x80000000 ∧ ¬ fde.length.toNat < 2 ^ 32) ∧
      module.functions.map (fun f => (f.start, f.fde.length)) =
        [(0x80001000, 0x100), (0x1000, 0xffffffff80000000)] ∧
      (module.index.1.find 0x80001000).map (·.start) = some 0x1000 ∧
      (module.index.1.find 0x100001000).map (·.start) = some 0x1000 := by
  intro header module
  have starts : longCode.Pointer .little 8 (longCode.bases {}) ⟨0x1b⟩ 48 60 52
      (some (wrapAddress 8 (0x2030 + 0xffffffffffffefd0))) :=
    .stored rfl rfl rfl rfl rfl
  have reads : (header.fde longCie longCode {}).toOption.map (fun fde => (fde.start, fde.length)) =
      some (wrapAddress 8 (0x2030 + 0xffffffffffffefd0), 0xffffffff80000000) := by decide +kernel
  obtain ⟨fde, read, values⟩ := Option.map_eq_some_iff.mp reads
  obtain ⟨start, length⟩ := Prod.mk.inj values
  refine ⟨rfl, ⟨fde, ok_of_to_option read, ⟨52, start ▸ starts, by decide, rfl⟩, ?_, ?_⟩, by decide +kernel,
    by decide +kernel, by decide +kernel⟩ <;> rw [length] <;> decide

end CallFrame
