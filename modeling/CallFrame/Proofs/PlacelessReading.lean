import CallFrame.Proofs.Parsing
import CallFrame.Proofs.TwoReadings

/-!
Reading without a place. Where bytes stand in a section matters to a reading step only through pointers
that are relative to themselves and through padding. Without these, the contents of an entry come to the
same wherever the entry is, but for the offsets that are noted in it.
-/

namespace CallFrame

/-! Steps that do not depend on the place. -/
section Steps

structure Cursor.SameBytes (here there : Cursor) : Prop where
  data : there.data = here.data
  endian : there.endian = here.endian

/-- From the same bytes, the two steps answer alike and leave the same bytes. -/
def Floats (R : α → β → Prop) (one : ReadM α) (other : ReadM β) : Prop :=
  ∀ here there, here.SameBytes there → Abreast Cursor.SameBytes R one other here there

variable {R : α → β → Prop} {S : γ → δ → Prop} {here there : Cursor}

theorem floats_bind {one : ReadM α} {other : ReadM β} {follow : α → ReadM γ} {follow' : β → ReadM δ}
    (first : Floats R one other)
    (rest : ∀ value value', R value value' → Floats S (follow value) (follow' value')) :
    Floats S (one >>= follow) (other >>= follow') := by
  intro here there same
  apply abreast_bind (first here there same)
  intro value value' after after' _ related
  exact rest value value' related after after'

theorem floats_look {follow : Cursor → ReadM α}
    (blind : ∀ here there, here.SameBytes there → follow there = follow here)
    (each : ∀ cursor, Floats Eq (follow cursor) (follow cursor)) :
    Floats Eq (get >>= follow) (get >>= follow) := by
  intro here there same
  apply abreast_get
  rw [blind here there same]
  exact each here here there same

theorem bytes_float (count : Nat) : Floats Eq (readBytes count) (readBytes count) := by
  intro here there same
  unfold Abreast
  rw [read_bytes_run, read_bytes_run, same.data]
  split
  · exact ⟨.error _, same⟩
  · exact ⟨.ok rfl, by simp only [Cursor.advance, same.data], same.endian⟩

theorem byte_floats : Floats Eq readByte readByte := by
  intro here there same
  unfold Abreast
  rw [read_byte_run, read_byte_run, same.data]
  cases here.data with
  | nil => exact ⟨.error _, same⟩
  | cons b rest => exact ⟨.ok rfl, by simp only [Cursor.advance, same.data], same.endian⟩

theorem leb_floats (decoder : List UInt8 → Except Leb128.Defect α × List UInt8) (tooLarge : Fault) :
    Floats Eq (readLeb decoder tooLarge) (readLeb decoder tooLarge) := by
  intro here there same
  unfold Abreast
  rw [read_leb_run, read_leb_run, same.data]
  exact ⟨alike_same _, rfl, same.endian⟩

theorem steps_float : ReadM.Placeless fun _ read => Floats Eq read read where
  pure _ := fun _ _ same => abreast_pure rfl same
  throw fault := fun _ _ same => abreast_throw fault same
  order blind each := floats_look (fun here there same => blind there here same.endian) each
  bind first rest := floats_bind first fun value _ related => related ▸ rest value
  bytes := bytes_float
  byte := byte_floats
  unsigned := leb_floats _ _
  signed := leb_floats _ _

theorem text_floats : Floats Eq readText readText := by
  apply floats_look
  · intro here there same
    rw [same.data]
  intro cursor
  dsimp only
  split
  · exact steps_float.throw _
  apply steps_float.bind (steps_float.map _ (steps_float.bytes _))
  intro _
  split
  · exact steps_float.pure _
  · exact steps_float.throw _

end Steps

/-! Pointers. -/
section Pointers

/-- The value is not relative to its own place, and no padding stands before it. -/
def Encoding.Unplaced (encoding : Encoding) : Prop :=
  encoding.application ≠ .ok .pcRelative ∧ encoding.application ≠ .ok .aligned

instance : DecidablePred Encoding.Unplaced := fun encoding =>
  inferInstanceAs (Decidable (encoding.application ≠ .ok .pcRelative ∧ encoding.application ≠ .ok .aligned))

theorem format_only_absolute (encoding : Encoding) : encoding.formatOnly.application = .ok .absolute := by
  have apart : (0x0f &&& 0x70 : UInt8) = 0 := by decide
  simp [Encoding.application, Encoding.formatOnly, UInt8.and_assoc, apart]

theorem format_only_unplaced (encoding : Encoding) : encoding.formatOnly.Unplaced := by
  unfold Encoding.Unplaced
  rw [format_only_absolute]
  exact ⟨by rintro ⟨⟩, by rintro ⟨⟩⟩

theorem direct_application (encoding : Encoding) : encoding.direct.application = encoding.application := by
  have kept : (0x7f &&& 0x70 : UInt8) = 0x70 := by decide
  unfold Encoding.direct
  split
  · simp only [Encoding.application, UInt8.and_assoc, kept]
  · rfl

theorem direct_unplaced {encoding : Encoding} (unplaced : encoding.Unplaced) : encoding.direct.Unplaced := by
  unfold Encoding.Unplaced
  rw [direct_application]
  exact unplaced

def PointerBases.Elsewhere (bases other : PointerBases) : Prop :=
  other = { bases with sectionAddress := other.sectionAddress }

variable {bases other : PointerBases}

theorem base_elsewhere (elsewhere : bases.Elsewhere other) {application : PointerApplication}
    (unplaced : application ≠ .pcRelative) (field field' : UInt64) :
    other.base field' application = bases.base field application := by
  rw [elsewhere]
  cases application with
  | pcRelative => exact absurd rfl unplaced
  | absolute | textRelative | dataRelative | functionRelative | aligned => rfl

theorem pointer_floats {encoding : Encoding} (unplaced : encoding.Unplaced) (size : UInt8)
    (elsewhere : bases.Elsewhere other) :
    Floats Eq (readPointer encoding size bases) (readPointer encoding size other) := by
  unfold readPointer
  split
  · exact steps_float.pure _
  split
  · exact steps_float.throw _
  cases applied : encoding.application with
  | error fault => exact steps_float.throw fault
  | ok application =>
      have relative : application ≠ .pcRelative := fun itself => unplaced.1 (applied.trans (congrArg _ itself))
      have padded : application ≠ .aligned := fun itself => unplaced.2 (applied.trans (congrArg _ itself))
      simp only [ReadM.lift_ok, pure_bind, padded, ↓reduceIte]
      intro here there same
      apply abreast_get
      rw [base_elsewhere elsewhere relative (bases.sectionAddress + here.offset.toUInt64)]
      refine steps_float.bind (steps_float.lift _) (fun format => ?_) here there same
      apply steps_float.bind (steps_float.format size format)
      intro value
      exact steps_float.bind (steps_float.lift _) fun _ => steps_float.pure _

theorem required_floats (absent : Fault) {encoding : Encoding} (unplaced : encoding.Unplaced) (size : UInt8)
    (elsewhere : bases.Elsewhere other) :
    Floats Eq (readRequired absent encoding size bases) (readRequired absent encoding size other) := by
  apply floats_bind (pointer_floats unplaced size elsewhere)
  rintro pointer _ rfl
  cases pointer with
  | none => exact steps_float.throw _
  | some value => exact steps_float.pure _

/-- What is read inside a block stays inside it, so the block alone decides. -/
theorem in_block_abreast {R : α → β → Prop} {one : ReadM α} {other : ReadM β} {here there : Cursor}
    (same : here.SameBytes there)
    (inside : ∀ block after, readBlock.run here = (.ok block, after) → ∀ inner',
      Cursor.SameBytes { after with data := block, offset := after.offset - block.length } inner' →
        Alike R (one.value { after with data := block, offset := after.offset - block.length })
          (other.value inner')) :
    Abreast Cursor.SameBytes R (readInBlock one) (readInBlock other) here there := by
  apply abreast_bind (steps_float.block here there same)
  rintro block _ after after' ran rfl same
  exact abreast_get (abreast_lift (inside block after ran _ ⟨rfl, same.endian⟩) same)

end Pointers

/-! Common entries. -/
section CommonEntries

variable {bases other : PointerBases} {here there : Cursor}

def ReadM.onward (read : ReadM α) (cursor : Cursor) (follow : α → Cursor → List β) : List β :=
  match read.run cursor with
  | (.ok value, rest) => follow value rest
  | (.error _, _) => []

theorem onward_ok {read : ReadM α} {cursor rest : Cursor} {value : α}
    (ran : read.run cursor = (.ok value, rest)) (follow : α → Cursor → List β) :
    read.onward cursor follow = follow value rest := by
  unfold ReadM.onward
  rw [ran]

def personalityEncodings (size : UInt8) (bases : PointerBases) : List Char → Cursor → List Encoding
  | 'L' :: letters, cursor | 'R' :: letters, cursor =>
    readByte.onward cursor fun _ rest => personalityEncodings size bases letters rest
  | 'P' :: letters, cursor =>
    readByte.onward cursor fun encoding rest =>
      ⟨encoding⟩ :: (readPointer (Encoding.mk encoding).direct size bases).onward rest fun _ rest =>
        personalityEncodings size bases letters rest
  | 'S' :: letters, cursor => personalityEncodings size bases letters cursor
  | _, _ => []

theorem augmentation_abreast (size : UInt8) (letters : List Char) (elsewhere : bases.Elsewhere other)
    (same : here.SameBytes there)
    (unplaced : ∀ encoding ∈ personalityEncodings size bases letters here, encoding.Unplaced)
    (aug : Augmentation) :
    Abreast Cursor.SameBytes Eq (readAugmentation size bases letters aug)
      (readAugmentation size other letters aug) here there := by
  fun_induction readAugmentation size bases letters aug generalizing here there with
  | case1 letters aug ih | case3 letters aug ih =>
      apply abreast_bind (byte_floats here there same)
      rintro encoding _ after after' ran rfl same
      rw [personalityEncodings, onward_ok ran] at unplaced
      exact ih encoding same unplaced
  | case2 letters aug ih =>
      apply abreast_bind (byte_floats here there same)
      rintro encoding _ after after' ran rfl same
      rw [personalityEncodings, onward_ok ran] at unplaced
      have plain := direct_unplaced (unplaced _ List.mem_cons_self)
      apply abreast_bind (pointer_floats plain size elsewhere after after' same)
      rintro pointer _ behind behind' ran rfl same
      rw [onward_ok ran] at unplaced
      exact ih _ _ same fun encoding member => unplaced encoding (List.mem_cons_of_mem _ member)
  | case4 letters aug ih =>
      rw [personalityEncodings] at unplaced
      exact ih same unplaced
  | case5 =>
      -- there are no letters, or one that is not known
      rw [readAugmentation]
      · exact abreast_pure rfl same
      all_goals assumption

theorem prelude_floats (kind : SectionKind) (layout : Layout) :
    Floats Eq (readPrelude kind layout) (readPrelude kind layout) :=
  steps_float.prelude text_floats kind layout

def Prelude.pointerEncodings (before : Prelude) (bases : PointerBases) (cursor : Cursor) : List Encoding :=
  match before.text.toList with
  | 'z' :: letters =>
    readBlock.onward cursor fun block after =>
      personalityEncodings before.addressSize bases letters
        { after with data := block, offset := after.offset - block.length }
  | _ => []

def cieEncodings (area : Section) (layout : Layout) (contents : Cursor) : List Encoding :=
  (readPrelude area.kind layout).onward contents fun before rest =>
    before.pointerEncodings (area.bases layout) rest

theorem augmentation_part_abreast (before : Prelude) (elsewhere : bases.Elsewhere other)
    (same : here.SameBytes there)
    (unplaced : ∀ encoding ∈ before.pointerEncodings bases here, encoding.Unplaced) :
    Abreast Cursor.SameBytes Eq (readAugmentationPart before.text before.addressSize bases)
      (readAugmentationPart before.text before.addressSize other) here there := by
  unfold readAugmentationPart
  unfold Prelude.pointerEncodings at unplaced
  split
  next letters text =>
    simp only [text] at unplaced
    rw [map_eq_pure_bind, map_eq_pure_bind]
    apply abreast_bind (R := Eq)
    · apply in_block_abreast same
      intro block after ran inner' same
      rw [onward_ok ran] at unplaced
      exact (augmentation_abreast _ letters elsewhere same unplaced {}).1
    · rintro aug _ after after' _ rfl same
      exact abreast_pure rfl same
  · exact abreast_pure rfl same
  · exact abreast_pure rfl same
  · exact abreast_throw _ same

def Cie.placeless (cie : Cie) : Cie := { cie with offset := 0, programOffset := 0 }

theorem read_cie_abreast (offset offset' : Nat) {area area' : Section} (kind : area'.kind = area.kind)
    (layout : Layout) (same : here.SameBytes there)
    (unplaced : ∀ encoding ∈ cieEncodings area layout here, encoding.Unplaced) :
    Abreast Cursor.SameBytes (fun cie cie' => cie.placeless = cie'.placeless)
      (readCie offset area layout) (readCie offset' area' layout) here there := by
  have elsewhere : (area.bases layout).Elsewhere (area'.bases layout) := rfl
  rw [read_cie_prelude, read_cie_prelude, kind]
  apply abreast_bind (prelude_floats area.kind layout here there same)
  rintro before _ after after' ran rfl same
  rw [cieEncodings, onward_ok ran] at unplaced
  apply abreast_bind (augmentation_part_abreast before elsewhere same unplaced)
  rintro aug _ rest rest' _ rfl same
  apply abreast_get
  apply abreast_pure _ same
  simp only [Cie.placeless, Prelude.cie, same.data]

end CommonEntries

/-! Functions. -/
section Functions

variable {bases other : PointerBases}

def Cie.functionEncodings (cie : Cie) : List Encoding :=
  cie.fdeEncoding :: (cie.augmentation.bind (·.lsdaEncoding)).toList

def Fde.placeless (fde : Fde) : Fde := { fde with offset := 0, cieOffset := 0, programOffset := 0 }

theorem lsda_floats (size : UInt8) (elsewhere : bases.Elsewhere other) (aug : Option Augmentation)
    (unplaced : ∀ encoding ∈ aug.bind (·.lsdaEncoding), encoding.Unplaced) :
    Floats Eq (readLsda size bases aug) (readLsda size other aug) := by
  intro here there same
  cases aug with
  | none => exact abreast_pure rfl same
  | some aug =>
      apply in_block_abreast same
      intro block after _ inner' same
      cases found : aug.lsdaEncoding with
      | none => exact .ok rfl
      | some encoding =>
          have plain := direct_unplaced (unplaced encoding found)
          exact (pointer_floats plain size elsewhere _ inner' same).1

theorem read_fde_floats (offset offset' : Nat) {cie cie' : Cie} (alike : cie.placeless = cie'.placeless)
    (elsewhere : bases.Elsewhere other)
    (unplaced : ∀ encoding ∈ cie.functionEncodings, encoding.Unplaced) :
    Floats (fun fde fde' => fde.placeless = fde'.placeless) (readFde offset cie bases)
      (readFde offset' cie' other) := by
  have size : cie.addressSize = cie'.addressSize := (congrArg Cie.addressSize alike :)
  have aug : cie.augmentation = cie'.augmentation := (congrArg Cie.augmentation alike :)
  have encoding : cie.fdeEncoding = cie'.fdeEncoding := (congrArg Cie.fdeEncoding alike :)
  unfold readFde
  rw [← size, ← aug, ← encoding]
  apply floats_bind (required_floats _ (unplaced _ List.mem_cons_self) cie.addressSize elsewhere)
  rintro start _ rfl
  apply floats_bind (required_floats _ (format_only_unplaced _) cie.addressSize elsewhere)
  rintro length _ rfl
  have inside : PointerBases.Elsewhere { bases with function := some start }
      { other with function := some start } := by
    rw [PointerBases.Elsewhere, elsewhere]
  apply floats_bind (lsda_floats cie.addressSize inside cie.augmentation _)
  · rintro lsda _ rfl here there same
    apply abreast_get
    apply abreast_pure _ same
    simp only [Fde.placeless, same.data]
  · intro encoding member
    exact unplaced encoding (List.mem_cons_of_mem _ (Option.mem_toList.mpr member))

end Functions

end CallFrame
