import CallFrame.Cursor

/-!
Encoded pointers: one byte says in which format the value is stored and what it is relative to.
-/

namespace CallFrame

inductive PointerFormat where
  /-- An unsigned value as wide as an address. -/
  | address
  | uleb128
  | udata2
  | udata4
  | udata8
  | sleb128
  | sdata2
  | sdata4
  | sdata8
  deriving DecidableEq

inductive PointerApplication where
  | absolute
  /-- Relative to the address of the value itself. -/
  | pcRelative
  | textRelative
  | dataRelative
  /-- Relative to the start of the function that the entry describes. -/
  | functionRelative
  /-- Absolute, behind padding to a multiple of the address size. -/
  | aligned
  deriving DecidableEq

/-- A pointer encoding: format in the low four bits, application in the next three, and the top bit
for a value that is the address of the pointer and not the pointer. -/
structure Encoding where
  byte : UInt8
  deriving DecidableEq

namespace Encoding

def absolute : Encoding := ⟨0x00⟩

def omitted : Encoding := ⟨0xff⟩

def format (e : Encoding) : Except Fault PointerFormat :=
  match e.byte &&& 0x0f with
  | 0x00 => .ok .address
  | 0x01 => .ok .uleb128
  | 0x02 => .ok .udata2
  | 0x03 => .ok .udata4
  | 0x04 => .ok .udata8
  | 0x09 => .ok .sleb128
  | 0x0a => .ok .sdata2
  | 0x0b => .ok .sdata4
  | 0x0c => .ok .sdata8
  | other => .error (.unknownPointerFormat other)

def application (e : Encoding) : Except Fault PointerApplication :=
  match e.byte &&& 0x70 with
  | 0x00 => .ok .absolute
  | 0x10 => .ok .pcRelative
  | 0x20 => .ok .textRelative
  | 0x30 => .ok .dataRelative
  | 0x40 => .ok .functionRelative
  | 0x50 => .ok .aligned
  | other => .error (.unknownPointerApplication other)

/-- The same format applied absolutely, for lengths. -/
def formatOnly (e : Encoding) : Encoding := ⟨e.byte &&& 0x0f⟩

def isIndirect (e : Encoding) : Bool := e != omitted && e.byte &&& 0x80 != 0

/-- The encoding of the slot's address, for pointers that are kept and never followed. -/
def direct (e : Encoding) : Encoding :=
  if e.isIndirect then ⟨e.byte &&& 0x7f⟩ else e

end Encoding

def PointerFormat.text : PointerFormat → String
  | .address => "DW_EH_PE_absptr"
  | .uleb128 => "DW_EH_PE_uleb128"
  | .udata2 => "DW_EH_PE_udata2"
  | .udata4 => "DW_EH_PE_udata4"
  | .udata8 => "DW_EH_PE_udata8"
  | .sleb128 => "DW_EH_PE_sleb128"
  | .sdata2 => "DW_EH_PE_sdata2"
  | .sdata4 => "DW_EH_PE_sdata4"
  | .sdata8 => "DW_EH_PE_sdata8"

def PointerApplication.text : PointerApplication → String
  | .absolute => "DW_EH_PE_absptr"
  | .pcRelative => "DW_EH_PE_pcrel"
  | .textRelative => "DW_EH_PE_textrel"
  | .dataRelative => "DW_EH_PE_datarel"
  | .functionRelative => "DW_EH_PE_funcrel"
  | .aligned => "DW_EH_PE_aligned"

def Encoding.text (e : Encoding) : String :=
  if e = .omitted then "DW_EH_PE_omit"
  else match e.application, e.format with
    | .ok application, .ok format => s!"{application.text} | {format.text}"
    | _, _ => s!"Encoding({hex e.byte.toNat})"

structure PointerBases where
  sectionAddress : UInt64
  text : Option UInt64 := none
  data : Option UInt64 := none
  function : Option UInt64 := none

def PointerBases.base (bases : PointerBases) (field : UInt64) :
    PointerApplication → Except Fault UInt64
  | .absolute | .aligned => .ok 0
  | .pcRelative => .ok field
  | .textRelative => bases.text.elim (.error .noTextBase) .ok
  | .dataRelative => bases.data.elim (.error .noDataBase) .ok
  | .functionRelative => bases.function.elim (.error .noFunctionBase) .ok

def addressCount (size : UInt8) : Nat := Nat.pow 256 size.toNat

/-- Addresses of fewer than eight bytes wrap at their own width. -/
def wrapAddress (size : UInt8) (value : UInt64) : UInt64 :=
  if size < 8 then (value.toNat % addressCount size).toUInt64 else value

def readFormat (size : UInt8) : PointerFormat → ReadM UInt64
  | .address => readAddress size
  | .uleb128 => readUnsigned
  | .udata2 => readWord 2
  | .udata4 => readWord 4
  | .udata8 | .sdata8 => readWord 8
  | .sleb128 => return (← readSigned).toUInt64
  | .sdata2 => return (← readWord 2).toUInt16.toInt16.toInt64.toUInt64
  | .sdata4 => return (← readWord 4).toUInt32.toInt32.toInt64.toUInt64

/-- Reads an encoded pointer, `none` for the encoding that omits it. The value is consumed before a
missing base is noticed. -/
def readPointer (encoding : Encoding) (size : UInt8) (bases : PointerBases) :
    ReadM (Option UInt64) := do
  if encoding = .omitted then return none
  else if encoding.isIndirect then throw .indirectPointer
  else
    let application ← encoding.application
    if application = .aligned then alignTo size
    let field := bases.sectionAddress + (← get).offset.toUInt64
    let value ← readFormat size (← encoding.format)
    let base ← bases.base field application
    return some (wrapAddress size (base + value))

end CallFrame
