import CallFrame.CfiEntry
import CallFrame.Section.Walk
import CallFrame.Proofs.Reading

/-!
Reading on a machine that stops where an operation has no result: a slice that is not there, a sum that
is too large for its word, a difference below zero, a shift by the width of the word or more. The parsers
are those of the library, with every operation of that kind written out. Elsewhere numbers are unbounded
and lists forgive, so that nothing stops; here all of it has to be in order.
-/

namespace CallFrame

inductive Trap where
  | outOfBounds
  | overflow
  | underflow
  | divisionByZero
  | shiftTooFar
  /-- A number that is cut to a narrower type and does not fit. -/
  | truncated
  /-- A row of more columns than there are numbers for. -/
  | tooWide
  deriving DecidableEq

abbrev CheckedE := ExceptT Fault (Except Trap)

/-- A reading step on the machine that stops. -/
abbrev CheckedM := ExceptT Fault (StateT Cursor (Except Trap))

def CheckedM.value (read : CheckedM α) (cursor : Cursor) : CheckedE α := do
  let (result, _) ← read.run cursor
  result

namespace Checked

/-! Operations. -/

def require (allowed : Prop) [Decidable allowed] (trap : Trap) (value : α) : Except Trap α :=
  if allowed then .ok value else .error trap

def inside : Option α → Except Trap α
  | some value => .ok value
  | none => .error .outOfBounds

def split (bytes : List UInt8) (place : Nat) : Except Trap (List UInt8 × List UInt8) :=
  require (place ≤ bytes.length) .outOfBounds (bytes.take place, bytes.drop place)

def sum (limit a b : Nat) : Except Trap Nat := require (a + b < limit) .overflow (a + b)

def difference (a b : Nat) : Except Trap Nat := require (b ≤ a) .underflow (a - b)

def product (limit a b : Nat) : Except Trap Nat := require (a * b < limit) .overflow (a * b)

def remainder (a b : Nat) : Except Trap Nat := require (b ≠ 0) .divisionByZero (a % b)

def shiftLeft (word : UInt64) (amount : Nat) : Except Trap UInt64 :=
  require (amount < 64) .shiftTooFar (word <<< amount.toUInt64)

def wordLimit : Nat := 2 ^ 64

def halfLimit : Nat := 2 ^ 32

/-- The bits of a LEB128 number are counted by a half word with a sign. -/
def bitLimit : Nat := 2 ^ 31

/-! Reading steps. -/

def readBytes (count : Nat) : CheckedM (List UInt8) := do
  let cursor ← get
  if cursor.data.length < count then throw (.readPastEnd count cursor.data.length)
  else
    let (front, rest) ← split cursor.data count
    let offset ← sum wordLimit cursor.offset count
    set { cursor with data := rest, offset }
    return front

def readByte : CheckedM UInt8 := do
  let bytes ← readBytes 1
  inside bytes[0]?

def readWord (width : Nat) : CheckedM UInt64 := do
  let cursor ← get
  let bytes ← readBytes width
  -- the slice is copied to an array of this width
  let bytes ← require (bytes.length = width) .outOfBounds bytes
  return (cursor.endian.value bytes).toUInt64

def readAddress (size : UInt8) : CheckedM UInt64 :=
  if size = 2 ∨ size = 4 ∨ size = 8 then readWord size.toNat
  else throw (.unsupportedAddressSize size)

def place (acc : UInt64) (shift : Nat) (b : UInt8) : Except Trap UInt64 :=
  return acc ||| (← shiftLeft (Leb128.payload b) shift)

def extend (acc : UInt64) (shift : Nat) (b : UInt8) : Except Trap UInt64 :=
  if shift < 64 && Leb128.negative b then return acc ||| (← shiftLeft (-1) shift) else return acc

/-- Reads groups from bit position `shift` on. Beyond the word only those are read over that hold no
information. `last` is done behind the last group. -/
def readGroups (empty : UInt64 → Bool) (tooLarge : Fault)
    (last : UInt64 → Nat → UInt8 → Except Trap α) : (fuel shift : Nat) → UInt64 → CheckedM α
  | 0, _, _ => throw (.readPastEnd 1 0)
  | fuel + 1, shift, acc => do
    let b ← readByte
    if shift < 64 then
      let acc ← place acc shift b
      let shift ← sum bitLimit shift 7
      if Leb128.continues b then readGroups empty tooLarge last fuel shift acc
      else last acc shift b
    else if !empty (Leb128.payload b) then throw tooLarge
    else
      let shift ← sum bitLimit shift 7
      if Leb128.continues b then readGroups empty tooLarge last fuel shift acc
      else last acc shift b

def readLeb (empty : UInt64 → Bool) (tooLarge : Fault)
    (last : UInt64 → Nat → UInt8 → Except Trap α) : CheckedM α := do
  let cursor ← get
  readGroups empty tooLarge last (cursor.data.length + 1) 0 0

def readUnsigned : CheckedM UInt64 :=
  readLeb (· == 0) .unsignedTooLarge fun acc _ _ => return acc

def readSigned : CheckedM Int64 :=
  readLeb (fun group => group == 0 || group == 0x7f) .signedTooLarge fun acc shift b =>
    return (← extend acc shift b).toInt64

def readText : CheckedM String := do
  let cursor ← get
  let length := (cursor.data.takeWhile (· ≠ 0)).length
  if length = cursor.data.length then throw .unterminatedText
  else
    let bytes ← readBytes (← sum wordLimit length 1)
    let (text, _) ← split bytes length
    match Utf8.decode text with
    | .ok text => return text
    | .error defect => throw (.brokenText defect)

def readBlock : CheckedM (List UInt8) := do
  let length ← readUnsigned
  readBytes length.toNat

def alignTo (size : UInt8) : CheckedM Unit := do
  let cursor ← get
  if size = 0 then throw .zeroAlignment
  else
    let past ← remainder cursor.offset size.toNat
    if past ≠ 0 then discard <| readBytes (← difference size.toNat past)

def readInBlock (read : CheckedM α) : CheckedM α := do
  let block ← readBlock
  let after ← get
  let offset ← difference after.offset block.length
  let (result, _) ← read.run { after with data := block, offset }
  result

/-! Pointers. -/

def wrapAddress (size : UInt8) (value : UInt64) : Except Trap UInt64 := do
  if size < 8 then
    let bits ← product halfLimit size.toNat 8
    let count ← shiftLeft 1 bits
    let mask ← difference count.toNat 1
    return value &&& mask.toUInt64
  else return value

def readFormat (size : UInt8) : PointerFormat → CheckedM UInt64
  | .address => readAddress size
  | .uleb128 => readUnsigned
  | .udata2 => readWord 2
  | .udata4 => readWord 4
  | .udata8 | .sdata8 => readWord 8
  | .sleb128 => return (← readSigned).toUInt64
  | .sdata2 => return (← readWord 2).toUInt16.toInt16.toInt64.toUInt64
  | .sdata4 => return (← readWord 4).toUInt32.toInt32.toInt64.toUInt64

def readPointer (encoding : Encoding) (size : UInt8) (bases : PointerBases) :
    CheckedM (Option UInt64) := do
  if encoding = .omitted then return none
  else if encoding.isIndirect then throw .indirectPointer
  else
    let application ← encoding.application
    if application = .aligned then alignTo size
    let field := bases.sectionAddress + (← get).offset.toUInt64
    let value ← readFormat size (← encoding.format)
    let base ← bases.base field application
    return some (← wrapAddress size (base + value))

/-! Common entries. -/

def readAugmentation (size : UInt8) (bases : PointerBases) :
    List Char → Augmentation → CheckedM Augmentation
  | 'L' :: letters, aug => do
    let encoding ← readByte
    readAugmentation size bases letters { aug with lsdaEncoding := some ⟨encoding⟩ }
  | 'P' :: letters, aug => do
    let encoding : Encoding := ⟨← readByte⟩
    let personality ← readPointer encoding.direct size bases
    readAugmentation size bases letters
      { aug with personality, personalityIndirect := encoding.isIndirect }
  | 'R' :: letters, aug => do
    let encoding ← readByte
    readAugmentation size bases letters { aug with fdeEncoding := some ⟨encoding⟩ }
  | 'S' :: letters, aug =>
    readAugmentation size bases letters { aug with signalFrame := true }
  | _, aug => return aug

def readTarget : CheckedM UInt8 := do
  let size ← readByte
  if size ≠ 2 ∧ size ≠ 4 ∧ size ≠ 8 then throw (.unsupportedAddressSize size)
  else
    let selector ← readByte
    if selector ≠ 0 then throw (.segmentSelectors selector)
    else return size

def readAddressSize (version : UInt8) (layout : Layout) : CheckedM UInt8 :=
  if version = 4 then readTarget else return layout.addressSize

def skipOldest (text : String) (layout : Layout) : CheckedM Unit :=
  if text.toList.take 2 = ['e', 'h'] then discard <| readBytes layout.addressSize.toNat
  else return ()

def readFactors : CheckedM (UInt64 × Int64) := do
  let code ← readUnsigned
  if code = 0 then throw .zeroCodeAlignment
  else
    let data ← readSigned
    if data = 0 then throw .zeroDataAlignment
    else return (code, data)

def readReturnColumn (version : UInt8) : CheckedM UInt64 :=
  if version = 1 then UInt8.toUInt64 <$> readByte else readUnsigned

def readAugmentationPart (text : String) (size : UInt8) (bases : PointerBases) :
    CheckedM (Option Augmentation) :=
  match text.toList with
  | 'z' :: letters => some <$> readInBlock (readAugmentation size bases letters {})
  | [] | 'e' :: 'h' :: _ => return none
  | _ => throw (.unknownAugmentation text)

def readCie (offset : Nat) (area : Section) (layout : Layout) : CheckedM Cie := do
  let version ← readByte
  if !area.kind.supports version then throw (.unsupportedVersion version)
  else
    let text ← readText
    skipOldest text layout
    let addressSize ← readAddressSize version layout
    let (codeAlignment, dataAlignment) ← readFactors
    let returnColumn ← readReturnColumn version
    let augmentation ← readAugmentationPart text addressSize (area.bases layout)
    let rest ← get
    return {
      offset, version, augmentationText := text, augmentation, addressSize
      codeAlignment, dataAlignment, returnColumn
      program := rest.data, programOffset := rest.offset }

/-! Functions. -/

def readRequired (absent : Fault) (encoding : Encoding) (size : UInt8) (bases : PointerBases) :
    CheckedM UInt64 := do
  match ← readPointer encoding size bases with
  | some value => return value
  | none => throw absent

def readLsda (size : UInt8) (bases : PointerBases) : Option Augmentation → CheckedM (Option UInt64)
  | none => return none
  | some aug =>
    readInBlock <| match aug.lsdaEncoding with
      | some encoding => readPointer encoding.direct size bases
      | none => return none

def readFde (offset : Nat) (cie : Cie) (bases : PointerBases) : CheckedM Fde := do
  let start ← readRequired .omittedLocation cie.fdeEncoding cie.addressSize bases
  let length ← readRequired .omittedRange cie.fdeEncoding.formatOnly cie.addressSize bases
  let bases := { bases with function := some start }
  let lsda ← readLsda cie.addressSize bases cie.augmentation
  let rest ← get
  return {
    offset, cieOffset := cie.offset, start, length, lsda
    program := rest.data, programOffset := rest.offset }

/-! Headers. -/

def readLength : CheckedM (Bool × UInt64) := do
  let short ← readWord 4
  if short = 0xffffffff then return (true, ← readWord 8)
  else return (false, short)

def readEntry (kind : SectionKind) (offset : Nat) (wide : Bool) (length : UInt64) :
    CheckedM EntryHeader := do
  let content ← get
  if content.data.length < length.toNat then throw (.entryPastEnd offset length)
  else
    let entry := { content with data := ← readBytes length.toNat }
    let next := (← get).offset
    let (id, body) ← (readWord (idWidth kind wide)).run entry
    return {
      offset
      id := ← id
      idOffset := content.offset
      wide
      body
      next }

def readHeader (kind : SectionKind) : CheckedM (Option EntryHeader) := do
  let start ← get
  if start.data.isEmpty then return none
  else
    let (wide, length) ← readLength
    if length = 0 then return none
    else some <$> readEntry kind start.offset wide length

def header (area : Section) (endian : Endian) (offset : Nat) : CheckedE (Option EntryHeader) := do
  if area.data.length < offset then throw (.entryOutOfBounds offset)
  else
    let (_, rest) ← split area.data offset
    (readHeader area.kind).value ⟨rest, offset, endian⟩

def headerCie (header : EntryHeader) (area : Section) (layout : Layout) : CheckedE Cie :=
  if header.isCie area.kind then (readCie header.offset area layout).value header.body
  else throw (.notACie header.offset)

def commonEntry (area : Section) (layout : Layout) (offset : Nat) : CheckedE Cie := do
  match ← header area layout.endian offset with
  | none => throw (.noEntry offset)
  | some header => headerCie header area layout

def headerFde (header : EntryHeader) (cie : Cie) (area : Section) (layout : Layout) : CheckedE Fde :=
  (readFde header.offset cie (area.bases layout)).value header.body

/-! Instructions. -/

def readExpression : CheckedM Expression := Expression.mk <$> readBlock

def readExtended (format : OperandFormat) (start : Nat) (opcode : UInt8) : CheckedM Instruction :=
  match opcode with
  | 0x00 => return .nop
  | 0x01 => .setLoc <$> readRequired .omittedTarget format.encoding format.addressSize format.bases
  | 0x02 => return .advanceLoc (← readByte).toUInt64
  | 0x03 => return .advanceLoc (← readWord 2)
  | 0x04 => return .advanceLoc (← readWord 4)
  | 0x05 => return .offset (← readUnsigned) (← readUnsigned)
  | 0x06 => return .restore (← readUnsigned)
  | 0x07 => return .undefined (← readUnsigned)
  | 0x08 => return .sameValue (← readUnsigned)
  | 0x09 => return .register (← readUnsigned) (← readUnsigned)
  | 0x0a => return .rememberState
  | 0x0b => return .restoreState
  | 0x0c => return .defCfa (← readUnsigned) (← readUnsigned)
  | 0x0d => return .defCfaRegister (← readUnsigned)
  | 0x0e => return .defCfaOffset (← readUnsigned)
  | 0x0f => return .defCfaExpression (← readExpression)
  | 0x10 => return .expression (← readUnsigned) (← readExpression)
  | 0x11 => return .offsetExtendedSf (← readUnsigned) (← readSigned)
  | 0x12 => return .defCfaSf (← readUnsigned) (← readSigned)
  | 0x13 => return .defCfaOffsetSf (← readSigned)
  | 0x14 => return .valOffset (← readUnsigned) (← readUnsigned)
  | 0x15 => return .valOffsetSf (← readUnsigned) (← readSigned)
  | 0x16 => return .valExpression (← readUnsigned) (← readExpression)
  | 0x1d => return .advanceLoc (← readWord 8)
  | 0x2d => return .windowSave
  | 0x2e => do
    discard readUnsigned
    return .skipped 0x2e
  | 0x2f => return .negativeOffsetExtended (← readUnsigned) (← readUnsigned)
  | other => throw (.unknownOpcode other start)

def readInstruction (format : OperandFormat) : CheckedM Instruction := do
  let start := (← get).offset
  let b ← readByte
  let low := (b &&& 0x3f).toUInt64
  match b >>> 6 with
  | 1 => return .advanceLoc low
  | 2 => return .offset low (← readUnsigned)
  | 3 => return .restore low
  | _ => readExtended format start b

def decodeFrom (format : OperandFormat) :
    Nat → Cursor → Except Trap (List (Except Fault Instruction))
  | 0, _ => return []
  | fuel + 1, cursor => do
    if cursor.data.isEmpty then return []
    else match ← (readInstruction format).run cursor with
      | (.ok instruction, rest) => return .ok instruction :: (← decodeFrom format fuel rest)
      | (.error fault, _) => return [.error fault]

def decodeProgram (format : OperandFormat) (cursor : Cursor) :
    Except Trap (List (Except Fault Instruction)) :=
  decodeFrom format cursor.data.length cursor

end Checked

end CallFrame
