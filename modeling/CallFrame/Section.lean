import CallFrame.Pointer

/-!
A call frame information section as it is mapped in a module, and what is known about the module.
-/

namespace CallFrame

inductive SectionKind where
  /-- The variant used for exception handling. -/
  | ehFrame
  /-- The variant of the debugging standard. -/
  | debugFrame
  deriving DecidableEq

def SectionKind.text : SectionKind → String
  | .ehFrame => "EhFrame"
  | .debugFrame => "DebugFrame"

structure Section where
  kind : SectionKind
  data : List UInt8
  /-- The base of pointers that are relative to themselves. -/
  address : UInt64

structure Layout where
  endian : Endian := .little
  addressSize : UInt8 := 8
  textBase : Option UInt64 := none
  dataBase : Option UInt64 := none

def Section.bases (area : Section) (layout : Layout) : PointerBases where
  sectionAddress := area.address
  text := layout.textBase
  data := layout.dataBase

end CallFrame
