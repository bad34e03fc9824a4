/-!
Byte orders, and words of any number of bytes in them.
-/

namespace CallFrame

inductive Endian where
  | little
  | big
  deriving DecidableEq

def littleValue : List UInt8 → Nat
  | [] => 0
  | b :: rest => b.toNat + 256 * littleValue rest

def littleBytes : Nat → Nat → List UInt8
  | 0, _ => []
  | width + 1, n => n.toUInt8 :: littleBytes width (n / 256)

def Endian.value : Endian → List UInt8 → Nat
  | .little, bytes => littleValue bytes
  | .big, bytes => littleValue bytes.reverse

end CallFrame
