import CallFrame.Proofs.Reading
import Mathlib.Algebra.Order.Ring.Int
import Mathlib.Tactic.Ring

/-!
Stored numbers: words of a fixed number of bytes that are written and read back, and what a group of a
LEB128 number adds to a word.
-/

namespace CallFrame

/-! Words. -/
section Words

theorem byte_nat (n : Nat) (short : n < 256) : n.toUInt8.toNat = n := by
  rw [Nat.toUInt8, UInt8.toNat_ofNat', Nat.mod_eq_of_lt short]

theorem little_bytes_length (width n : Nat) : (littleBytes width n).length = width := by
  induction width generalizing n with
  | zero => rfl
  | succ width ih => rw [littleBytes, List.length_cons, ih]

theorem little_value_bytes (width n : Nat) : littleValue (littleBytes width n) = n % 256 ^ width := by
  induction width generalizing n with
  | zero => simp [littleBytes, littleValue, Nat.mod_one]
  | succ width ih =>
      have byte : n.toUInt8.toNat = n % 256 := UInt8.toNat_ofNat'
      rw [littleBytes, littleValue, ih, byte, Nat.pow_succ, Nat.mul_comm (256 ^ width), Nat.mod_mul]

end Words

namespace Leb128

theorem payload_nat (b : UInt8) : (payload b).toNat = b.toNat % 128 := by
  have group : (0x7f : UInt8).toNat = 2 ^ 7 - 1 := rfl
  rw [payload, UInt8.toNat_toUInt64, UInt8.toNat_and, group, Nat.and_two_pow_sub_one_eq_mod]

theorem continues_iff (b : UInt8) : continues b = decide (128 ≤ b.toNat) := by
  have all : ∀ i : Fin 256, continues (UInt8.ofFin i) = decide (128 ≤ (UInt8.ofFin i).toNat) := by
    decide +kernel
  exact all b.toFin

theorem negative_iff (b : UInt8) : negative b = decide (64 ≤ b.toNat % 128) := by
  have all : ∀ i : Fin 256, negative (UInt8.ofFin i) = decide (64 ≤ (UInt8.ofFin i).toNat % 128) := by
    decide +kernel
  exact all b.toFin

/-- A word shifted to a bit position, and another one below. -/
theorem or_shifted (acc word : UInt64) (shift : Nat) (below : acc.toNat < 2 ^ shift) (inWord : shift < 64) :
    (acc ||| word <<< shift.toUInt64).toNat = acc.toNat + word.toNat * 2 ^ shift % 2 ^ 64 := by
  have position : shift.toUInt64.toNat % 64 = shift := by
    rw [word_nat shift (by omega), Nat.mod_eq_of_lt inWord]
  have split : (2 : Nat) ^ 64 = 2 ^ shift * 2 ^ (64 - shift) := by
    rw [← Nat.pow_add]
    congr 1
    omega
  rw [UInt64.toNat_or, UInt64.toNat_shiftLeft, position, Nat.shiftLeft_eq, Nat.mul_comm word.toNat, split,
    Nat.mul_mod_mul_left, Nat.or_comm, ← Nat.two_pow_add_eq_or_of_lt below, Nat.add_comm]

theorem place_nat (acc : UInt64) (shift : Nat) (b : UInt8) (below : acc.toNat < 2 ^ shift)
    (inWord : shift < 64) :
    (place acc shift b).toNat = acc.toNat + b.toNat % 128 * 2 ^ shift % 2 ^ 64 := by
  rw [place, or_shifted acc _ shift below inWord, payload_nat]

/-- The word is the number, but for a multiple of the number of words. -/
def Wraps (word : UInt64) (n : Int) : Prop := ∃ k : Int, (word.toNat : Int) = n + k * 2 ^ 64

theorem wraps_to_uint64 {word : UInt64} {n : Nat} (wraps : Wraps word n) : word = n.toUInt64 := by
  obtain ⟨k, value⟩ := wraps
  have limit := word.toNat_lt
  rw [← UInt64.toNat_inj, Nat.toUInt64, UInt64.toNat_ofNat']
  omega

theorem wraps_to_int64 {word : UInt64} {n : Int} (wraps : Wraps word n) : word.toInt64 = Int64.ofInt n := by
  obtain ⟨k, value⟩ := wraps
  rw [← Int64.toInt_inj, Int64.toInt_ofInt]
  change word.toBitVec.toInt = _
  rw [BitVec.toInt_eq_toNat_bmod]
  change (word.toNat : Int).bmod (2 ^ 64) = _
  rw [value]
  exact Int.add_mul_bmod_self_right n k (2 ^ 64)

theorem place_wraps {acc : UInt64} {shift : Nat} (b : UInt8) (below : acc.toNat < 2 ^ shift)
    (inWord : shift < 64) :
    Wraps (place acc shift b) (acc.toNat + (b.toNat % 128 : Nat) * 2 ^ shift) := by
  refine ⟨-(b.toNat % 128 * 2 ^ shift / 2 ^ 64 : Nat), ?_⟩
  have group : ((b.toNat % 128 : Nat) : Int) * 2 ^ shift = (b.toNat % 128 * 2 ^ shift : Nat) := by
    push_cast
    rfl
  rw [place_nat acc shift b below inWord, group]
  generalize b.toNat % 128 * 2 ^ shift = shifted
  omega

/-- The sign of the last group extends to the groups that are not there. -/
theorem extend_wraps {acc : UInt64} {shift : Nat} (b : UInt8) (below : acc.toNat < 2 ^ shift) {n : Int}
    (wraps : Wraps acc n) :
    Wraps (extend acc shift b) (if 64 ≤ b.toNat % 128 then n - 2 ^ shift else n) := by
  obtain ⟨k, value⟩ := wraps
  rw [extend, negative_iff]
  by_cases sign : 64 ≤ b.toNat % 128
  · rw [if_pos sign, decide_eq_true sign, Bool.and_true]
    by_cases inWord : shift < 64
    · -- all bits from there on are set: as much as a word less the bit position
      have ones : (-1 : UInt64).toNat = 2 ^ 64 - 1 := rfl
      have power : ((2 ^ shift : Nat) : Int) = 2 ^ shift := by push_cast; rfl
      rw [if_pos (decide_eq_true inWord)]
      refine ⟨k + (2 ^ shift : Nat) - ((2 ^ 64 - 1) * 2 ^ shift / 2 ^ 64 : Nat), ?_⟩
      rw [or_shifted acc (-1) shift below inWord, ones, ← power]
      generalize 2 ^ shift = high at *
      omega
    · have beyond : (2 : Int) ^ shift = 2 ^ (shift - 64) * 2 ^ 64 := by
        rw [← pow_add]
        congr 1
        omega
      rw [if_neg (by simpa using inWord)]
      refine ⟨k + 2 ^ (shift - 64), ?_⟩
      rw [value, beyond]
      ring
  · rw [if_neg sign, decide_eq_false sign, Bool.and_false]
    exact ⟨k, value⟩

theorem place_below {acc : UInt64} {shift : Nat} (b : UInt8) (below : acc.toNat < 2 ^ shift)
    (inWord : shift < 64) : (place acc shift b).toNat < 2 ^ (shift + 7) := by
  have wide : 2 ^ (shift + 7) = 2 ^ shift * 128 := Nat.pow_add 2 shift 7
  have group : b.toNat % 128 * 2 ^ shift ≤ 127 * 2 ^ shift := Nat.mul_le_mul_right _ (by omega)
  have cut := Nat.mod_le (b.toNat % 128 * 2 ^ shift) (2 ^ 64)
  rw [place_nat acc shift b below inWord]
  omega

end Leb128

end CallFrame
