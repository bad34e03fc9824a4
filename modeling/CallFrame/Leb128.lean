/-!
LEB128 numbers: groups of seven bits, least significant first, each in a byte whose top bit says
whether another group follows. Decoding is into words of 64 bits. A group is dropped where it lies
beyond the word and holds no information; one that does is refused by the strict decoders and
ignored by the lenient one.
-/

namespace CallFrame.Leb128

inductive Defect where
  | truncated
  | tooLarge
  deriving DecidableEq

def payload (b : UInt8) : UInt64 := (b &&& 0x7f).toUInt64

def continues (b : UInt8) : Bool := b &&& 0x80 != 0

def negative (b : UInt8) : Bool := b &&& 0x40 != 0

/-- Adds a group at bit position `shift`, below 64; its bits beyond the word are lost. -/
def place (acc : UInt64) (shift : Nat) (b : UInt8) : UInt64 :=
  acc ||| payload b <<< shift.toUInt64

def extend (acc : UInt64) (shift : Nat) (b : UInt8) : UInt64 :=
  if shift < 64 && negative b then acc ||| (-1) <<< shift.toUInt64 else acc

def unsignedFrom (shift : Nat) (acc : UInt64) : List UInt8 → Except Defect UInt64 × List UInt8
  | [] => (.error .truncated, [])
  | b :: rest =>
    if shift < 64 then
      if continues b then unsignedFrom (shift + 7) (place acc shift b) rest
      else (.ok (place acc shift b), rest)
    else if payload b ≠ 0 then (.error .tooLarge, rest)
    else if continues b then unsignedFrom (shift + 7) acc rest
    else (.ok acc, rest)

/-- Reads like `unsignedFrom`; beyond the word a group of ones is as empty as a group of zeros. -/
def signedFrom (shift : Nat) (acc : UInt64) : List UInt8 → Except Defect UInt64 × List UInt8
  | [] => (.error .truncated, [])
  | b :: rest =>
    if shift < 64 then
      if continues b then signedFrom (shift + 7) (place acc shift b) rest
      else (.ok (extend (place acc shift b) (shift + 7) b), rest)
    else if payload b ≠ 0 ∧ payload b ≠ 0x7f then (.error .tooLarge, rest)
    else if continues b then signedFrom (shift + 7) acc rest
    else (.ok acc, rest)

def lenientFrom (signed : Bool) (shift : Nat) (acc : UInt64) :
    List UInt8 → Option (UInt64 × List UInt8)
  | [] => none
  | b :: rest =>
    let acc := if shift < 64 then place acc shift b else acc
    if continues b then lenientFrom signed (shift + 7) acc rest
    else some (if signed then extend acc (shift + 7) b else acc, rest)

def unsigned (bytes : List UInt8) : Except Defect UInt64 × List UInt8 :=
  unsignedFrom 0 0 bytes

def signed (bytes : List UInt8) : Except Defect Int64 × List UInt8 :=
  let (word, rest) := signedFrom 0 0 bytes
  (word.map UInt64.toInt64, rest)

def lenient (signed : Bool) (bytes : List UInt8) : Option (UInt64 × List UInt8) :=
  lenientFrom signed 0 0 bytes

def ofNat (n : Nat) : List UInt8 :=
  if n < 128 then [n.toUInt8]
  else (n % 128 + 128).toUInt8 :: ofNat (n / 128)

/-- The shortest groups of an integer: the last one has the sign in its bit `0x40`. -/
def ofInt (n : Int) : List UInt8 :=
  if -64 ≤ n ∧ n < 64 then [(n % 128).toNat.toUInt8]
  else (n % 128 + 128).toNat.toUInt8 :: ofInt (n / 128)
termination_by n.natAbs

def ofUInt64 (n : UInt64) : List UInt8 := ofNat n.toNat

def ofInt64 (n : Int64) : List UInt8 := ofInt n.toInt

end CallFrame.Leb128
