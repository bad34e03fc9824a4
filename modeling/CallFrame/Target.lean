import CallFrame.Section

/-!
The register space of a target, and what interpreting a frame program needs to know about it.
-/

namespace CallFrame

structure Target where
  name : String
  /-- Size in bytes of an address and of a saved register. -/
  addressSize : UInt8
  endian : Endian
  /-- How many columns every row has at least. -/
  numRegs : UInt16
  pc : Register
  sp : Register
  /-- Whether frames of this target may be unwound by call frame information at all. -/
  dwarfCfi : Bool := true
  /-- Whether registers are saved by windows; otherwise saving a window means nothing. -/
  registerWindows : Bool := false
  /-- From a stored register number to the target's numbering, where the two differ. -/
  adjust : Option (UInt64 → SectionKind → UInt64) := none

namespace Target

def adjusted (target : Target) (raw : UInt64) (kind : SectionKind) : UInt64 :=
  match target.adjust with
  | some adjust => adjust raw kind
  | none => raw

def extraColumns : Nat := 128

/-- The column that a stored register number means. Far out numbers are garbage, not columns. -/
def column (target : Target) (kind : SectionKind) (raw : UInt64) : Except Fault Register :=
  let number := target.adjusted raw kind
  if number.toNat < target.numRegs.toNat + extraColumns ∧ number.toNat < 65536 then
    .ok ⟨number.toUInt16⟩
  else .error (.registerOutOfRange number)

end Target

end CallFrame
