import CallFrame.Proofs.Reading
import CallFrame.Instruction

/-!
What every parser has because the steps have it that move the cursor. Of these there are few; all else
puts them together. One such property is that a parser moves its cursor forward and never past the end.
-/

namespace CallFrame

/-! A common entry in parts. -/
section Parts

structure Prelude where
  version : UInt8
  text : String
  addressSize : UInt8
  codeAlignment : UInt64
  dataAlignment : Int64
  returnColumn : UInt64

def readPrelude (kind : SectionKind) (layout : Layout) : ReadM Prelude := do
  let version ← readByte
  if !kind.supports version then throw (.unsupportedVersion version)
  else
    let text ← readText
    skipOldest text layout
    let addressSize ← readAddressSize version layout
    let (codeAlignment, dataAlignment) ← readFactors
    let returnColumn ← readReturnColumn version
    return { version, text, addressSize, codeAlignment, dataAlignment, returnColumn }

def Prelude.cie (before : Prelude) (offset : Nat) (augmentation : Option Augmentation) (rest : Cursor) :
    Cie where
  offset
  version := before.version
  augmentationText := before.text
  augmentation
  addressSize := before.addressSize
  codeAlignment := before.codeAlignment
  dataAlignment := before.dataAlignment
  returnColumn := before.returnColumn
  program := rest.data
  programOffset := rest.offset

theorem read_cie_prelude (offset : Nat) (area : Section) (layout : Layout) :
    readCie offset area layout = do
      let before ← readPrelude area.kind layout
      let augmentation ← readAugmentationPart before.text before.addressSize (area.bases layout)
      let rest ← get
      return before.cie offset augmentation rest := by
  unfold readCie readPrelude
  rw [bind_assoc]
  congr 1
  funext version
  split
  · rfl
  · simp only [bind_assoc, pure_bind]
    rfl

end Parts

/-! A pointer in parts. -/
section StoredValues

def readStored (encoding : Encoding) (size : UInt8) : ReadM (UInt64 × UInt64) :=
  if encoding.isIndirect then throw .indirectPointer
  else do
    let application ← encoding.application
    if application = .aligned then alignTo size
    let place := (← get).offset.toUInt64
    return (place, ← readFormat size (← encoding.format))

def PointerBases.origin (bases : PointerBases) (encoding : Encoding) (place : UInt64) :
    Except Fault UInt64 := do
  bases.base (bases.sectionAddress + place) (← encoding.application)

theorem origin_applied {encoding : Encoding} {application : PointerApplication}
    (applied : encoding.application = .ok application) (bases : PointerBases) (place : UInt64) :
    bases.origin encoding place = bases.base (bases.sectionAddress + place) application := by
  rw [PointerBases.origin, applied]
  rfl

theorem origin_fails {encoding : Encoding} {fault : Fault} (fails : encoding.application = .error fault)
    (bases : PointerBases) (place : UInt64) : bases.origin encoding place = .error fault := by
  rw [PointerBases.origin, fails]
  rfl

/-- The bases come last: what is stored is read without them. -/
theorem read_pointer_stored (encoding : Encoding) (size : UInt8) (bases : PointerBases) :
    readPointer encoding size bases =
      if encoding = .omitted then return none
      else do
        let (place, value) ← readStored encoding size
        let origin ← bases.origin encoding place
        return some (wrapAddress size (origin + value)) := by
  unfold readPointer readStored PointerBases.origin
  split
  · rfl
  split
  · rfl
  cases encoding.application with
  | error fault => rfl
  | ok application =>
      simp only [ReadM.lift_ok, pure_bind]
      split <;> simp only [bind_assoc, pure_bind] <;> rfl

end StoredValues

namespace ReadM

/-- The steps that read numbers, blocks and bytes have the property, and what is put together from such
steps. It may look at the byte order, but not where the cursor stands. -/
structure Placeless (holds : (α : Type) → ReadM α → Prop) : Prop where
  pure {α : Type} (value : α) : holds α (pure value)
  throw {α : Type} (fault : Fault) : holds α (throw fault)
  order {β : Type} {follow : Cursor → ReadM β} :
    (∀ cursor other, cursor.endian = other.endian → follow cursor = follow other) →
      (∀ cursor, holds β (follow cursor)) → holds β (get >>= follow)
  bind {α β : Type} {read : ReadM α} {follow : α → ReadM β} :
    holds α read → (∀ value, holds β (follow value)) → holds β (read >>= follow)
  bytes (count : Nat) : holds _ (readBytes count)
  byte : holds _ readByte
  unsigned : holds _ readUnsigned
  signed : holds _ readSigned

/-- It may look where the cursor stands, too, but not at what is left. -/
structure Scans (holds : (α : Type) → ReadM α → Prop) : Prop extends Placeless holds where
  look {β : Type} {follow : Cursor → ReadM β} :
    (∀ cursor data, follow { cursor with data } = follow cursor) → (∀ cursor, holds β (follow cursor)) →
      holds β (get >>= follow)
  order blind each := look (fun cursor data => blind { cursor with data } cursor rfl) each

structure Composes (holds : (α : Type) → ReadM α → Prop) : Prop extends Scans holds where
  cursor : holds Cursor get
  text : holds _ readText
  inBlock {α : Type} {read : ReadM α} : holds α read → holds α (readInBlock read)

namespace Placeless

variable {holds : (α : Type) → ReadM α → Prop} (steps : Placeless holds)

include steps

theorem map {read : ReadM α} (change : α → β) (reads : holds α read) : holds β (change <$> read) := by
  rw [map_eq_pure_bind]
  exact steps.bind reads fun _ => steps.pure _

theorem lift (result : Except Fault α) : holds α (liftM result) := by
  cases result with
  | ok value => exact steps.pure value
  | error fault => exact steps.throw fault

theorem word (width : Nat) : holds _ (readWord width) := by
  apply steps.order
  · intro cursor other same
    rw [same]
  intro cursor
  exact steps.bind (steps.bytes width) fun _ => steps.pure _

theorem address (size : UInt8) : holds _ (readAddress size) := by
  unfold readAddress
  split
  · exact steps.word _
  · exact steps.throw _

theorem block : holds _ readBlock :=
  steps.bind steps.unsigned fun _ => steps.bytes _

theorem expression : holds _ readExpression := steps.map Expression.mk steps.block

theorem format (size : UInt8) (format : PointerFormat) : holds _ (readFormat size format) := by
  cases format with
  | address => exact steps.address size
  | uleb128 => exact steps.unsigned
  | udata2 => exact steps.word 2
  | udata4 => exact steps.word 4
  | udata8 | sdata8 => exact steps.word 8
  | sleb128 => exact steps.bind steps.signed fun _ => steps.pure _
  | sdata2 | sdata4 => exact steps.bind (steps.word _) fun _ => steps.pure _

theorem oldest (text : String) (layout : Layout) : holds _ (skipOldest text layout) := by
  unfold skipOldest
  split
  · exact steps.map _ (steps.bytes _)
  · exact steps.pure _

theorem target : holds _ readTarget := by
  apply steps.bind steps.byte
  intro size
  split
  · exact steps.throw _
  apply steps.bind steps.byte
  intro selector
  split
  · exact steps.throw _
  · exact steps.pure _

theorem address_size (version : UInt8) (layout : Layout) :
    holds _ (readAddressSize version layout) := by
  unfold readAddressSize
  split
  · exact steps.target
  · exact steps.pure _

theorem factors : holds _ readFactors := by
  apply steps.bind steps.unsigned
  intro code
  split
  · exact steps.throw _
  apply steps.bind steps.signed
  intro data
  split
  · exact steps.throw _
  · exact steps.pure _

theorem return_column (version : UInt8) : holds _ (readReturnColumn version) := by
  unfold readReturnColumn
  split
  · exact steps.map _ steps.byte
  · exact steps.unsigned

theorem prelude (text : holds _ readText) (kind : SectionKind) (layout : Layout) :
    holds _ (readPrelude kind layout) := by
  apply steps.bind steps.byte
  intro version
  split
  · exact steps.throw _
  apply steps.bind text
  intro text
  apply steps.bind (steps.oldest text layout)
  intro _
  apply steps.bind (steps.address_size version layout)
  intro size
  apply steps.bind steps.factors
  intro factors
  exact steps.bind (steps.return_column version) fun _ => steps.pure _

end Placeless

namespace Scans

variable {holds : (α : Type) → ReadM α → Prop} (scans : Scans holds)

include scans

theorem align (size : UInt8) : holds _ (alignTo size) := by
  apply scans.look fun _ _ => rfl
  intro cursor
  split
  · exact scans.throw _
  dsimp only
  split
  · exact scans.map _ (scans.bytes _)
  · exact scans.pure _

theorem stored (encoding : Encoding) (size : UInt8) : holds _ (readStored encoding size) := by
  unfold readStored
  split
  · exact scans.throw _
  apply scans.bind (scans.lift _)
  intro application
  have placed : holds _ (do
      let cursor ← get
      return (cursor.offset.toUInt64, ← readFormat size (← encoding.format)) : ReadM (UInt64 × UInt64)) := by
    apply scans.look fun _ _ => rfl
    intro cursor
    apply scans.bind (scans.lift _)
    intro format
    exact scans.bind (scans.format size format) fun _ => scans.pure _
  dsimp only
  split
  · exact scans.bind (scans.align size) fun _ => placed
  · exact placed

theorem pointer (encoding : Encoding) (size : UInt8) (bases : PointerBases) :
    holds _ (readPointer encoding size bases) := by
  rw [read_pointer_stored]
  split
  · exact scans.pure _
  apply scans.bind (scans.stored encoding size)
  intro stored
  exact scans.bind (scans.lift _) fun _ => scans.pure _

theorem required (absent : Fault) (encoding : Encoding) (size : UInt8) (bases : PointerBases) :
    holds _ (readRequired absent encoding size bases) := by
  apply scans.bind (scans.pointer encoding size bases)
  intro pointer
  cases pointer with
  | none => exact scans.throw _
  | some value => exact scans.pure _

theorem extended (format : OperandFormat) (start : Nat) (opcode : UInt8) :
    holds _ (readExtended format start opcode) := by
  have unsigned : holds _ readUnsigned := scans.unsigned
  have signed : holds _ readSigned := scans.signed
  have expression : holds _ readExpression := scans.expression
  unfold readExtended
  split
  -- the opcodes by their operands
  case h_1 | h_11 | h_12 | h_25 => exact scans.pure _
  case h_2 => exact scans.map _ (scans.required _ _ _ _)
  case h_3 => exact scans.bind scans.byte fun _ => scans.pure _
  case h_4 | h_5 | h_24 => exact scans.bind (scans.word _) fun _ => scans.pure _
  case h_7 | h_8 | h_9 | h_14 | h_15 => exact scans.bind unsigned fun _ => scans.pure _
  case h_20 => exact scans.bind signed fun _ => scans.pure _
  case h_16 => exact scans.bind expression fun _ => scans.pure _
  case h_6 | h_10 | h_13 | h_21 | h_27 =>
    exact scans.bind unsigned fun _ => scans.bind unsigned fun _ => scans.pure _
  case h_18 | h_19 | h_22 =>
    exact scans.bind unsigned fun _ => scans.bind signed fun _ => scans.pure _
  case h_17 | h_23 =>
    exact scans.bind unsigned fun _ => scans.bind expression fun _ => scans.pure _
  case h_26 => exact scans.bind (scans.map _ unsigned) fun _ => scans.pure _
  case h_28 => exact scans.throw _

/-- What is read of an instruction behind its first byte. -/
theorem operands (format : OperandFormat) (start : Nat) (b : UInt8) :
    holds _ (match b >>> 6 with
      | 1 => return .advanceLoc (b &&& 0x3f).toUInt64
      | 2 => return .offset (b &&& 0x3f).toUInt64 (← readUnsigned)
      | 3 => return .restore (b &&& 0x3f).toUInt64
      | _ => readExtended format start b) := by
  split
  · exact scans.pure _
  · exact scans.bind scans.unsigned fun _ => scans.pure _
  · exact scans.pure _
  · exact scans.extended format _ _

theorem instruction (format : OperandFormat) : holds _ (readInstruction format) := by
  apply scans.look fun _ _ => rfl
  intro start
  exact scans.bind scans.byte fun b => scans.operands format start.offset b

end Scans

namespace Composes

variable {holds : (α : Type) → ReadM α → Prop} (composes : Composes holds)

include composes

theorem augmentation (size : UInt8) (bases : PointerBases) (letters : List Char)
    (aug : Augmentation) : holds _ (readAugmentation size bases letters aug) := by
  fun_induction readAugmentation size bases letters aug with
  | case1 letters aug ih => exact composes.bind composes.byte ih
  | case2 letters aug ih =>
      apply composes.bind composes.byte
      intro encoding
      exact composes.bind (composes.pointer _ size bases) fun _ => ih _ _
  | case3 letters aug ih => exact composes.bind composes.byte ih
  | case4 letters aug ih => exact ih
  | case5 aug => exact composes.pure _

theorem augmentation_part (text : String) (size : UInt8) (bases : PointerBases) :
    holds _ (readAugmentationPart text size bases) := by
  unfold readAugmentationPart
  split
  · exact composes.map _ (composes.inBlock (composes.augmentation size bases _ _))
  · exact composes.pure _
  · exact composes.pure _
  · exact composes.throw _

theorem cie (offset : Nat) (area : Section) (layout : Layout) :
    holds _ (readCie offset area layout) := by
  rw [read_cie_prelude]
  apply composes.bind (composes.prelude composes.text area.kind layout)
  intro before
  apply composes.bind (composes.augmentation_part before.text before.addressSize _)
  intro augmentation
  exact composes.bind composes.cursor fun _ => composes.pure _

theorem lsda (size : UInt8) (bases : PointerBases) (aug : Option Augmentation) :
    holds _ (readLsda size bases aug) := by
  cases aug with
  | none => exact composes.pure _
  | some aug =>
      apply composes.inBlock
      split
      · exact composes.pointer _ _ _
      · exact composes.pure _

theorem fde (offset : Nat) (cie : Cie) (bases : PointerBases) : holds _ (readFde offset cie bases) := by
  apply composes.bind (composes.required _ _ _ _)
  intro start
  apply composes.bind (composes.required _ _ _ _)
  intro length
  apply composes.bind (composes.lsda _ _ _)
  intro lsda
  exact composes.bind composes.cursor fun _ => composes.pure _

end Composes

end ReadM

/-! Parsers move forward. -/
section Forward

theorem unsigned_from_suffix (shift : Nat) (acc : UInt64) (bytes : List UInt8) :
    (Leb128.unsignedFrom shift acc bytes).2 <:+ bytes := by
  induction bytes generalizing shift acc with
  | nil => exact List.suffix_rfl
  | cons b rest ih =>
      have longer {left : List UInt8} (inside : left <:+ rest) : left <:+ b :: rest :=
        inside.trans (List.suffix_cons b rest)
      unfold Leb128.unsignedFrom
      split
      · split
        · exact longer (ih _ _)
        · exact longer List.suffix_rfl
      split
      · exact longer List.suffix_rfl
      split
      · exact longer (ih _ _)
      · exact longer List.suffix_rfl

theorem signed_from_suffix (shift : Nat) (acc : UInt64) (bytes : List UInt8) :
    (Leb128.signedFrom shift acc bytes).2 <:+ bytes := by
  induction bytes generalizing shift acc with
  | nil => exact List.suffix_rfl
  | cons b rest ih =>
      have longer {left : List UInt8} (inside : left <:+ rest) : left <:+ b :: rest :=
        inside.trans (List.suffix_cons b rest)
      unfold Leb128.signedFrom
      split
      · split
        · exact longer (ih _ _)
        · exact longer List.suffix_rfl
      split
      · exact longer List.suffix_rfl
      split
      · exact longer (ih _ _)
      · exact longer List.suffix_rfl

structure Leb128.Decodes (empty : UInt64 → Bool) (done : UInt64 → Nat → UInt8 → α)
    (decoder : Nat → UInt64 → List UInt8 → Except Leb128.Defect α × List UInt8) : Prop where
  nothing (shift : Nat) (acc : UInt64) : decoder shift acc [] = (.error .truncated, [])
  group (shift : Nat) (acc : UInt64) (b : UInt8) (rest : List UInt8) :
    decoder shift acc (b :: rest) =
      if shift < 64 then
        if Leb128.continues b then decoder (shift + 7) (Leb128.place acc shift b) rest
        else (.ok (done (Leb128.place acc shift b) (shift + 7) b), rest)
      else if !empty (Leb128.payload b) then (.error .tooLarge, rest)
      else if Leb128.continues b then decoder (shift + 7) acc rest
      else (.ok (done acc (shift + 7) b), rest)
  suffix (shift : Nat) (acc : UInt64) (bytes : List UInt8) : (decoder shift acc bytes).2 <:+ bytes

theorem unsigned_decodes :
    Leb128.Decodes (· == 0) (fun acc _ _ => acc) Leb128.unsignedFrom where
  nothing _ _ := rfl
  group shift acc b rest := by
    rw [Leb128.unsignedFrom]
    by_cases zero : Leb128.payload b = 0 <;> simp [zero]
  suffix := unsigned_from_suffix

theorem signed_decodes :
    Leb128.Decodes (fun group => group == 0 || group == 0x7f)
      (fun acc shift b => (Leb128.extend acc shift b).toInt64) fun shift acc bytes =>
        let (word, rest) := Leb128.signedFrom shift acc bytes
        (word.map UInt64.toInt64, rest) where
  nothing _ _ := rfl
  group shift acc b rest := by
    have beyond (far : ¬ shift < 64) : Leb128.extend acc (shift + 7) b = acc := by
      have : ¬ shift + 7 < 64 := by omega
      simp [Leb128.extend, this]
    rw [Leb128.signedFrom]
    by_cases low : shift < 64
    · by_cases more : Leb128.continues b <;> simp [low, more, Except.map]
    · by_cases zero : Leb128.payload b = 0
      · by_cases more : Leb128.continues b <;> simp [low, more, zero, beyond low, Except.map]
      · by_cases ones : Leb128.payload b = 0x7f <;> by_cases more : Leb128.continues b <;>
          simp [low, more, zero, ones, beyond low, Except.map]
  suffix := signed_from_suffix

def Leb128.gather (acc : UInt64) (shift : Nat) (b : UInt8) : UInt64 :=
  if shift < 64 then Leb128.place acc shift b else acc

namespace Leb128.Decodes

variable {empty : UInt64 → Bool} {done : UInt64 → Nat → UInt8 → α}
  {decoder : Nat → UInt64 → List UInt8 → Except Defect α × List UInt8} {shift : Nat} {acc : UInt64}

/-- A group in the word is read, and so is one beyond it that is empty. -/
theorem reads (decodes : Decodes empty done decoder) (b : UInt8) (rest : List UInt8)
    (read : 64 ≤ shift → empty (payload b) = true) :
    decoder shift acc (b :: rest) =
      if continues b then decoder (shift + 7) (gather acc shift b) rest
      else (.ok (done (gather acc shift b) (shift + 7) b), rest) := by
  rw [decodes.group, gather]
  by_cases inWord : shift < 64
  · rw [if_pos inWord, if_pos inWord]
  · rw [if_neg inWord, if_neg inWord, read (Nat.le_of_not_lt inWord)]
    rfl

theorem refuses (decodes : Decodes empty done decoder) (b : UInt8) (rest : List UInt8)
    (lost : ¬ (64 ≤ shift → empty (payload b) = true)) :
    decoder shift acc (b :: rest) = (.error .tooLarge, rest) := by
  obtain ⟨beyond, full⟩ := Classical.not_imp.mp lost
  rw [decodes.group, if_neg (Nat.not_lt.mpr beyond), Bool.eq_false_iff.mpr full]
  rfl

end Leb128.Decodes

/-- Whether it succeeds or not, the parser leaves the cursor further on, at the end at most. -/
def ReadM.Advances (read : ReadM α) : Prop :=
  ∀ cursor, ∃ count ≤ cursor.data.length, (read.run cursor).2 = cursor.advance count

theorem advance_advance (cursor : Cursor) (count further : Nat) :
    (cursor.advance count).advance further = cursor.advance (count + further) := by
  simp only [Cursor.advance, List.drop_drop, Nat.add_assoc]

theorem advance_length (cursor : Cursor) (count : Nat) :
    (cursor.advance count).data.length = cursor.data.length - count := by
  simp only [Cursor.advance, List.length_drop]

theorem advances_stay {read : ReadM α} (stays : ∀ cursor, (read.run cursor).2 = cursor) :
    read.Advances := by
  intro cursor
  exact ⟨0, Nat.zero_le _, stays cursor⟩

theorem advances_bind {read : ReadM α} {follow : α → ReadM β} (first : read.Advances)
    (rest : ∀ value, (follow value).Advances) : (read >>= follow).Advances := by
  intro cursor
  obtain ⟨count, inside, left⟩ := first cursor
  rw [ReadM.run_bind]
  rcases ran : read.run cursor with ⟨fault | value, after⟩ <;> rw [ran] at left <;> cases left
  · exact ⟨count, inside, rfl⟩
  · obtain ⟨further, inside', left'⟩ := rest value (cursor.advance count)
    rw [advance_length] at inside'
    refine ⟨count + further, by omega, ?_⟩
    rw [← advance_advance]
    exact left'

theorem bytes_advance (count : Nat) : (readBytes count).Advances := by
  intro cursor
  rw [read_bytes_run]
  by_cases short : cursor.data.length < count
  · rw [if_pos short]
    exact ⟨0, Nat.zero_le _, rfl⟩
  · rw [if_neg short]
    exact ⟨count, Nat.le_of_not_lt short, rfl⟩

theorem read_byte_run (cursor : Cursor) :
    readByte.run cursor =
      match cursor.data with
      | [] => (.error (.readPastEnd 1 0), cursor)
      | b :: _ => (.ok b, cursor.advance 1) := by
  rcases cursor with ⟨_ | ⟨b, rest⟩, offset, endian⟩ <;> rfl

theorem byte_advances : readByte.Advances := by
  intro cursor
  rw [read_byte_run]
  cases known : cursor.data with
  | nil => exact ⟨0, Nat.zero_le _, rfl⟩
  | cons b rest => exact ⟨1, Nat.succ_le_succ (Nat.zero_le _), rfl⟩

theorem read_leb_run (decoder : List UInt8 → Except Leb128.Defect α × List UInt8) (tooLarge : Fault)
    (cursor : Cursor) :
    (readLeb decoder tooLarge).run cursor =
      ((decoder cursor.data).1.mapError (·.fault tooLarge),
        { cursor with
          data := (decoder cursor.data).2
          offset := cursor.offset + (cursor.data.length - (decoder cursor.data).2.length) }) := by
  rw [readLeb, ReadM.run_bind, ReadM.run_get]
  dsimp only
  rcases decoder cursor.data with ⟨defect | value, rest⟩ <;> rfl

theorem leb_advances (decoder : List UInt8 → Except Leb128.Defect α × List UInt8) (tooLarge : Fault)
    (suffix : ∀ bytes, (decoder bytes).2 <:+ bytes) : (readLeb decoder tooLarge).Advances := by
  intro cursor
  refine ⟨cursor.data.length - (decoder cursor.data).2.length, Nat.sub_le _ _, ?_⟩
  rw [read_leb_run, Cursor.advance, ← List.suffix_iff_eq_drop.mp (suffix cursor.data)]

theorem discard_advances {read : ReadM α} (advances : read.Advances) : (discard read).Advances := by
  change ReadM.Advances ((fun _ => ()) <$> read)
  rw [map_eq_pure_bind]
  exact advances_bind advances fun _ => advances_stay fun _ => rfl

theorem text_advances : readText.Advances := by
  apply advances_bind (advances_stay fun _ => rfl)
  intro cursor
  dsimp only
  split
  · exact advances_stay fun _ => rfl
  apply advances_bind (discard_advances (bytes_advance _))
  intro _
  split <;> exact advances_stay fun _ => rfl

/-- What is read inside a block is over with the block. -/
theorem in_block_advances (read : ReadM α) : (readInBlock read).Advances := by
  apply advances_bind
  · exact advances_bind (leb_advances _ _ (unsigned_from_suffix 0 0)) fun _ => bytes_advance _
  intro block
  apply advances_bind (advances_stay fun _ => rfl)
  intro after
  cases read.value _ <;> exact advances_stay fun _ => rfl

theorem parsers_advance : ReadM.Composes fun _ read => read.Advances where
  pure _ := advances_stay fun _ => rfl
  throw _ := advances_stay fun _ => rfl
  look _ each := advances_bind (advances_stay fun _ => rfl) each
  cursor := advances_stay fun _ => rfl
  bind := advances_bind
  bytes := bytes_advance
  byte := byte_advances
  unsigned := leb_advances _ _ (unsigned_from_suffix 0 0)
  signed := leb_advances _ _ (signed_from_suffix 0 0)
  text := text_advances
  inBlock {_ read} _ := in_block_advances read

/-- Only one of the extended opcodes jumps to an address. -/
theorem extended_no_jump (format : OperandFormat) (start : Nat) (opcode : UInt8) (noAddress : opcode ≠ 0x01) :
    (readExtended format start opcode).Yields fun instruction => ∀ address, instruction ≠ .setLoc address := by
  unfold readExtended
  split
  case h_2 => exact (noAddress rfl).elim
  -- the others by the number of their operands
  case h_1 | h_11 | h_12 | h_25 => exact ReadM.yields_pure _ (by rintro address ⟨⟩)
  case h_3 | h_4 | h_5 | h_7 | h_8 | h_9 | h_14 | h_15 | h_16 | h_20 | h_24 | h_26 =>
    exact ReadM.yields_bind _ _ fun _ => ReadM.yields_pure _ (by rintro address ⟨⟩)
  case h_6 | h_10 | h_13 | h_17 | h_18 | h_19 | h_21 | h_22 | h_23 | h_27 =>
    exact ReadM.yields_bind _ _ fun _ => ReadM.yields_bind _ _ fun _ =>
      ReadM.yields_pure _ (by rintro address ⟨⟩)
  case h_28 => exact ReadM.yields_throw _

/-- Reading an instruction takes its opcode at least, well or not. -/
theorem instruction_moves (format : OperandFormat) (cursor : Cursor) (some : cursor.data ≠ []) :
    ((readInstruction format).run cursor).2.data.length < cursor.data.length := by
  rw [readInstruction, ReadM.run_bind, ReadM.run_get]
  dsimp only
  rw [ReadM.run_bind, read_byte_run]
  cases known : cursor.data with
  | nil => exact absurd known some
  | cons b bytes =>
      obtain ⟨count, -, left⟩ := parsers_advance.operands format cursor.offset b (cursor.advance 1)
      have moved := congrArg (·.data.length) left
      rw [advance_advance, advance_length, known, List.length_cons] at moved
      refine Nat.lt_of_le_of_lt (Nat.le_of_eq moved) ?_
      rw [List.length_cons]
      omega

theorem instruction_shorter (format : OperandFormat) {cursor rest : Cursor} {instruction : Instruction}
    (read : (readInstruction format).run cursor = (.ok instruction, rest)) :
    rest.data.length < cursor.data.length := by
  have some : cursor.data ≠ [] := by
    intro empty
    rw [readInstruction, ReadM.run_bind, ReadM.run_get] at read
    dsimp only at read
    rw [ReadM.run_bind, read_byte_run, empty] at read
    cases read
  simpa only [read] using instruction_moves format cursor some

/-- The bytes of a program are a bound that its decoding never comes to. -/
theorem decode_from_enough (format : OperandFormat) (fuel : Nat) (cursor : Cursor)
    (enough : cursor.data.length ≤ fuel) :
    decodeFrom format fuel cursor = decodeProgram format cursor := by
  have bounded (fuel fuel' : Nat) (cursor : Cursor) (enough : cursor.data.length ≤ fuel)
      (enough' : cursor.data.length ≤ fuel') :
      decodeFrom format fuel cursor = decodeFrom format fuel' cursor := by
    induction fuel generalizing fuel' cursor with
    | zero =>
        have empty : cursor.data = [] := List.eq_nil_of_length_eq_zero (Nat.le_zero.mp enough)
        cases fuel' <;> simp [decodeFrom, empty]
    | succ fuel ih =>
        cases fuel' with
        | zero =>
            have empty : cursor.data = [] := List.eq_nil_of_length_eq_zero (Nat.le_zero.mp enough')
            simp [decodeFrom, empty]
        | succ fuel' =>
            unfold decodeFrom
            split
            · rfl
            split
            next instruction rest read =>
              have shorter := instruction_shorter format read
              rw [ih fuel' rest (by omega) (by omega)]
            · rfl
  exact bounded fuel _ cursor enough (Nat.le_refl _)

end Forward

end CallFrame
