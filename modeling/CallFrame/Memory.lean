/-!
Sparse memory over the whole 64-bit address space: a stack of patches, the newest on top. A patch
may run past the last address, and then continues at the first.
-/

namespace CallFrame

/-- Bytes from an address on; a hole hides what older patches have there. -/
structure Patch where
  base : UInt64
  bytes : List (Option UInt8)

structure Memory where
  /-- Newest first. -/
  patches : List Patch := []

namespace Memory

def byte? (memory : Memory) (address : UInt64) : Option UInt8 :=
  (memory.patches.findSome? fun patch => patch.bytes[(address - patch.base).toNat]?).join

def write (memory : Memory) (address : UInt64) (bytes : List UInt8) : Memory where
  patches := ⟨address, bytes.map some⟩ :: memory.patches

def erase (memory : Memory) (address : UInt64) (count : Nat) : Memory where
  patches := ⟨address, List.replicate count none⟩ :: memory.patches

def read (memory : Memory) (address : UInt64) : Nat → Except UInt64 (List UInt8)
  | 0 => .ok []
  | count + 1 =>
    match memory.byte? address with
    | none => .error address
    | some b => (memory.read (address + 1) count).map (b :: ·)

end Memory

end CallFrame
