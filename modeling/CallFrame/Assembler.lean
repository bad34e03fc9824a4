import CallFrame.Index.Search

/-!
Assembling sections: little-endian, with addresses of eight bytes. Entries are padded to a
multiple of eight bytes with instructions that do nothing.
-/

namespace CallFrame

inductive AssemblyFault where
  | unknownCie
  | unsupportedEncoding (encoding : UInt8)
  deriving DecidableEq

def AssemblyFault.message : AssemblyFault → String
  | .unknownCie => "fde() needs a CIE written by this builder"
  | .unsupportedEncoding encoding => s!"unsupported FDE encoding {hex encoding.toNat}"

/-- A common entry to be written. Of the augmentation only `z`, `R` and `S` are understood. -/
structure CieSpec where
  version : UInt8 := 1
  augmentation : String := ""
  fdeEncoding : UInt8 := 0
  codeAlignment : UInt64 := 1
  dataAlignment : Int64 := -8
  returnColumn : UInt64 := 16
  program : List UInt8 := []

namespace CieSpec

def hasLength (spec : CieSpec) : Bool := spec.augmentation.toList.head? = some 'z'

def effectiveEncoding (spec : CieSpec) : UInt8 :=
  if spec.augmentation.toList.contains 'R' then spec.fdeEncoding else 0

def augmentationData (spec : CieSpec) : List UInt8 :=
  (spec.augmentation.toList.drop 1).filterMap fun letter =>
    if letter = 'R' then some spec.fdeEncoding else none

end CieSpec

structure Assembler where
  kind : SectionKind
  address : UInt64 := 0
  data : List UInt8 := []
  cies : List (Nat × CieSpec) := []

namespace Assembler

def block (bytes : List UInt8) : List UInt8 :=
  Leb128.ofNat bytes.length ++ bytes

def sealed (content : List UInt8) : List UInt8 :=
  let padded := content ++ List.replicate ((8 - (4 + content.length) % 8) % 8) 0
  littleBytes 4 padded.length ++ padded

def cieId : SectionKind → Nat
  | .ehFrame => 0
  | .debugFrame => 0xffffffff

def cieContent (kind : SectionKind) (spec : CieSpec) : List UInt8 :=
  littleBytes 4 (cieId kind) ++ [spec.version] ++
  spec.augmentation.toList.flatMap String.utf8EncodeChar ++ [0] ++
  (if spec.version = 4 then [8, 0] else []) ++
  Leb128.ofUInt64 spec.codeAlignment ++ Leb128.ofInt64 spec.dataAlignment ++
  (if spec.version = 1 then [spec.returnColumn.toUInt8] else Leb128.ofUInt64 spec.returnColumn) ++
  (if spec.hasLength then block spec.augmentationData else []) ++
  spec.program

def cie (a : Assembler) (spec : CieSpec) : Nat × Assembler :=
  (a.data.length,
    { a with
      data := a.data ++ sealed (cieContent a.kind spec)
      cies := a.cies ++ [(a.data.length, spec)] })

def addresses (encoding : UInt8) (field start length : UInt64) :
    Except AssemblyFault (List UInt8) :=
  match encoding with
  | 0x00 => .ok (littleBytes 8 start.toNat ++ littleBytes 8 length.toNat)
  | 0x03 => .ok (littleBytes 4 start.toNat ++ littleBytes 4 length.toNat)
  | 0x1b => .ok (littleBytes 4 (start - field).toNat ++ littleBytes 4 length.toNat)
  | other => .error (.unsupportedEncoding other)

def fde (a : Assembler) (cie : Nat) (start length : UInt64) (program : List UInt8) :
    Except AssemblyFault (Nat × Assembler) := do
  match a.cies.lookup cie with
  | none => throw .unknownCie
  | some spec =>
    let offset := a.data.length
    let id := match a.kind with
      | .debugFrame => cie
      | .ehFrame => offset + 4 - cie
    let field := a.address + (offset + 8).toUInt64
    let fields ← addresses spec.effectiveEncoding field start length
    let augmentation := if spec.hasLength then block [] else []
    let content := littleBytes 4 id ++ fields ++ augmentation ++ program
    return (offset, { a with data := a.data ++ sealed content })

def finish (a : Assembler) : List UInt8 :=
  match a.kind with
  | .ehFrame => a.data ++ [0, 0, 0, 0]
  | .debugFrame => a.data

def module (a : Assembler) (name : String) : LoadedModule :=
  match a.kind with
  | .ehFrame => { name, ehFrame := some ⟨.ehFrame, a.finish, a.address⟩ }
  | .debugFrame => { name, debugFrame := some ⟨.debugFrame, a.finish, 0⟩ }

end Assembler

end CallFrame
