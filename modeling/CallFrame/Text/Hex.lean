/-!
Hexadecimal numerals: how addresses, offsets and bytes are written in every text of the library.
-/

namespace CallFrame

def hexDigits (n : Nat) : List Char := Nat.toDigits 16 n

def hex (n : Nat) : String := String.ofList ('0' :: 'x' :: hexDigits n)

def hexPair (b : UInt8) : List Char :=
  [Nat.digitChar (b.toNat / 16), Nat.digitChar (b.toNat % 16)]

def hexByte (b : UInt8) : String := String.ofList ('0' :: 'x' :: hexPair b)

end CallFrame
