/-!
Strict UTF-8 decoding. Surrogates, overlong forms and code points beyond U+10FFFF are refused, and a
refusal says how many bytes were well formed and how long the broken sequence after them is.
-/

namespace CallFrame.Utf8

/-- Where decoding stopped. `brokenLength` is `none` when the bytes end inside a sequence that could
still have been completed. -/
structure Defect where
  validUpTo : Nat
  brokenLength : Option Nat
  deriving DecidableEq

/-- A sequence under way: where it began, how many of its bytes were read, how many are owed, the
range of the next one, and the code point so far. -/
structure Pending where
  start : Nat
  seen : Nat
  owed : Nat
  low : UInt8
  high : UInt8
  code : Nat

/-- The sequence that a lead byte opens. The range of the second byte is what keeps overlong forms,
surrogates and code points that are too large out. -/
def opened (start : Nat) (b : UInt8) : Option Pending :=
  if 0xc2 ≤ b ∧ b ≤ 0xdf then some ⟨start, 1, 1, 0x80, 0xbf, b.toNat % 32⟩
  else if b = 0xe0 then some ⟨start, 1, 2, 0xa0, 0xbf, b.toNat % 16⟩
  else if b = 0xed then some ⟨start, 1, 2, 0x80, 0x9f, b.toNat % 16⟩
  else if 0xe1 ≤ b ∧ b ≤ 0xef then some ⟨start, 1, 2, 0x80, 0xbf, b.toNat % 16⟩
  else if b = 0xf0 then some ⟨start, 1, 3, 0x90, 0xbf, b.toNat % 8⟩
  else if 0xf1 ≤ b ∧ b ≤ 0xf3 then some ⟨start, 1, 3, 0x80, 0xbf, b.toNat % 8⟩
  else if b = 0xf4 then some ⟨start, 1, 3, 0x80, 0x8f, b.toNat % 8⟩
  else none

def decodeFrom : Nat → Option Pending → List UInt8 → Except Defect (List Char)
  | _, none, [] => .ok []
  | _, some p, [] => .error ⟨p.start, none⟩
  | pos, none, b :: rest =>
    if b < 0x80 then (decodeFrom (pos + 1) none rest).map (Char.ofNat b.toNat :: ·)
    else match opened pos b with
      | none => .error ⟨pos, some 1⟩
      | some p => decodeFrom (pos + 1) (some p) rest
  | pos, some p, b :: rest =>
    if p.low ≤ b ∧ b ≤ p.high then
      let code := p.code * 64 + b.toNat % 64
      if p.owed = 1 then (decodeFrom (pos + 1) none rest).map (Char.ofNat code :: ·)
      else decodeFrom (pos + 1) (some ⟨p.start, p.seen + 1, p.owed - 1, 0x80, 0xbf, code⟩) rest
    else .error ⟨p.start, some p.seen⟩

def decode (bytes : List UInt8) : Except Defect String :=
  (decodeFrom 0 none bytes).map String.ofList

end CallFrame.Utf8
