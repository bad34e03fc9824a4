import CallFrame.Section.Entry

/-!
Common information entries: what several functions share. The augmentation string says which of its
parts are present.
-/

namespace CallFrame

structure Augmentation where
  /-- How the functions' language specific data is pointed at. -/
  lsdaEncoding : Option Encoding := none
  /-- How the functions' addresses are stored. -/
  fdeEncoding : Option Encoding := none
  /-- Kept, never called. -/
  personality : Option UInt64 := none
  /-- Whether the personality is the address of a slot that holds the routine's address. -/
  personalityIndirect : Bool := false
  signalFrame : Bool := false

structure Cie where
  offset : Nat
  version : UInt8
  augmentationText : String
  augmentation : Option Augmentation
  addressSize : UInt8
  /-- Factor of every advance of the location. -/
  codeAlignment : UInt64
  /-- Factor of the factored offsets. -/
  dataAlignment : Int64
  /-- The return address column as stored, before the architecture renumbers it. -/
  returnColumn : UInt64
  /-- The program that sets every column up. -/
  program : List UInt8
  programOffset : Nat

namespace Cie

def fdeEncoding (cie : Cie) : Encoding :=
  (cie.augmentation.bind (·.fdeEncoding)).getD .absolute

def isSignalFrame (cie : Cie) : Bool :=
  cie.augmentation.any (·.signalFrame)

end Cie

def SectionKind.supports : SectionKind → UInt8 → Bool
  | .ehFrame, version => version = 1 || version = 3
  | .debugFrame, version => version = 1 || version = 3 || version = 4

/-- Reads the data of each augmentation letter in turn. The rest of the block is left alone from the
first letter on that is not known. -/
def readAugmentation (size : UInt8) (bases : PointerBases) :
    List Char → Augmentation → ReadM Augmentation
  | 'L' :: letters, aug => do
    let encoding ← readByte
    readAugmentation size bases letters { aug with lsdaEncoding := some ⟨encoding⟩ }
  | 'P' :: letters, aug => do
    let encoding : Encoding := ⟨← readByte⟩
    let personality ← readPointer encoding.direct size bases
    readAugmentation size bases letters
      { aug with personality, personalityIndirect := encoding.isIndirect }
  | 'R' :: letters, aug => do
    let encoding ← readByte
    readAugmentation size bases letters { aug with fdeEncoding := some ⟨encoding⟩ }
  | 'S' :: letters, aug =>
    readAugmentation size bases letters { aug with signalFrame := true }
  | _, aug => return aug

/-- Reads a block and runs a reading step inside it, at the offset it has in the section. -/
def readInBlock (read : ReadM α) : ReadM α := do
  let block ← readBlock
  let after ← get
  read.value { after with data := block, offset := after.offset - block.length }

def readTarget : ReadM UInt8 := do
  let size ← readByte
  if size ≠ 2 ∧ size ≠ 4 ∧ size ≠ 8 then throw (.unsupportedAddressSize size)
  else
    let selector ← readByte
    if selector ≠ 0 then throw (.segmentSelectors selector)
    else return size

def readAddressSize (version : UInt8) (layout : Layout) : ReadM UInt8 :=
  if version = 4 then readTarget else return layout.addressSize

def skipOldest (text : String) (layout : Layout) : ReadM Unit :=
  if text.toList.take 2 = ['e', 'h'] then discard <| readBytes layout.addressSize.toNat
  else return ()

/-- Reads the two alignment factors. A zero would make every location or offset the same. -/
def readFactors : ReadM (UInt64 × Int64) := do
  let code ← readUnsigned
  if code = 0 then throw .zeroCodeAlignment
  else
    let data ← readSigned
    if data = 0 then throw .zeroDataAlignment
    else return (code, data)

def readReturnColumn (version : UInt8) : ReadM UInt64 :=
  if version = 1 then UInt8.toUInt64 <$> readByte else readUnsigned

/-- What follows the factors. Without a leading `z` there is no length to skip what is not known. -/
def readAugmentationPart (text : String) (size : UInt8) (bases : PointerBases) :
    ReadM (Option Augmentation) :=
  match text.toList with
  | 'z' :: letters => some <$> readInBlock (readAugmentation size bases letters {})
  | [] | 'e' :: 'h' :: _ => return none
  | _ => throw (.unknownAugmentation text)

def readCie (offset : Nat) (area : Section) (layout : Layout) : ReadM Cie := do
  let version ← readByte
  if !area.kind.supports version then throw (.unsupportedVersion version)
  else
    let text ← readText
    skipOldest text layout
    let addressSize ← readAddressSize version layout
    let (codeAlignment, dataAlignment) ← readFactors
    let returnColumn ← readReturnColumn version
    let augmentation ← readAugmentationPart text addressSize (area.bases layout)
    let rest ← get
    return {
      offset, version, augmentationText := text, augmentation, addressSize
      codeAlignment, dataAlignment, returnColumn
      program := rest.data, programOffset := rest.offset }

def EntryHeader.cie (header : EntryHeader) (area : Section) (layout : Layout) :
    Except Fault Cie :=
  if header.isCie area.kind then (readCie header.offset area layout).value header.body
  else .error (.notACie header.offset)

def Section.cie (area : Section) (layout : Layout) (offset : Nat) : Except Fault Cie := do
  match ← area.header layout.endian offset with
  | none => throw (.noEntry offset)
  | some header => header.cie area layout

end CallFrame
