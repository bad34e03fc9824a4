import CallFrame.Proofs.ReadingInBounds
import CallFrame.Proofs.StoredNumbers

/-!
LEB128 numbers of any length. Groups stand for a number without bound, and a strict decoder yields a
word for them: the number, cut to the word, if no group beyond the tenth holds information. So a
number that fits is read as it is, however many groups it has. One that does not fit is refused, unless
all that is too much of it stands in the tenth group, of which only the lowest bit is in the word; a
signed one may also have groups behind it that contradict each other or the sign.
-/

namespace CallFrame

namespace Leb128

/-! Groups and their numbers. -/
section Numbers

/-- The groups of one number: each announces another one, but for the last. -/
inductive Whole : List UInt8 → Prop
  | last (b : UInt8) (ends : continues b = false) : Whole [b]
  | more (b : UInt8) (rest : List UInt8) (goes : continues b = true) (whole : Whole rest) : Whole (b :: rest)

def number : List UInt8 → Nat
  | [] => 0
  | b :: rest => b.toNat % 128 + 128 * number rest

/-- The number that groups stand for if bit `0x40` of the last one is a sign. -/
def signedNumber (groups : List UInt8) : Int :=
  if groups.getLast?.any negative then number groups - 2 ^ (7 * groups.length) else number groups

theorem whole_ne_nil {groups : List UInt8} (whole : Whole groups) : groups ≠ [] := by
  cases whole <;> exact List.cons_ne_nil _ _

theorem whole_append {leading : List UInt8} {b : UInt8} (goes : leading.all continues = true)
    (ends : continues b = false) : Whole (leading ++ [b]) := by
  induction leading with
  | nil => exact .last b ends
  | cons first leading ih =>
      rw [List.all_cons, Bool.and_eq_true] at goes
      exact .more first _ goes.1 (ih goes.2)

theorem payload_eq (b : UInt8) (group : UInt64) : payload b = group ↔ b.toNat % 128 = group.toNat := by
  rw [← UInt64.toNat_inj, payload_nat]

/-- A number has at most `7 * count` bits if all groups from `count` on are zero. -/
theorem number_lt_iff (groups : List UInt8) (count : Nat) :
    number groups < 2 ^ (7 * count) ↔ ∀ b ∈ groups.drop count, payload b = 0 := by
  induction groups generalizing count with
  | nil => simp [number]
  | cons b rest ih =>
      cases count with
      | zero =>
          have behind := ih 0
          simp only [List.drop_zero, Nat.mul_zero, Nat.pow_zero, Nat.lt_one_iff, List.forall_mem_cons,
            payload_eq, UInt64.toNat_zero, number] at behind ⊢
          rw [← behind]
          omega
      | succ count =>
          have wide : 2 ^ (7 * (count + 1)) = 2 ^ (7 * count) * 128 := Nat.pow_add 2 (7 * count) 7
          rw [List.drop_succ_cons, ← ih count, number, wide]
          omega

theorem signed_number_single (b : UInt8) :
    signedNumber [b] = if 64 ≤ b.toNat % 128 then (b.toNat % 128 : Int) - 128 else b.toNat % 128 := by
  simp [signedNumber, number, negative_iff]

theorem signed_number_cons (b : UInt8) {rest : List UInt8} (further : rest ≠ []) :
    signedNumber (b :: rest) = (b.toNat % 128 : Int) + 128 * signedNumber rest := by
  obtain ⟨next, behind, rfl⟩ := List.exists_cons_of_ne_nil further
  have wide : (2 : Int) ^ (7 * (b :: next :: behind).length) = 128 * 2 ^ (7 * (next :: behind).length) := by
    rw [List.length_cons, Nat.mul_add, pow_add, Int.mul_comm]
    rfl
  rw [signedNumber, List.getLast?_cons_cons, wide, signedNumber, number]
  split
  · push_cast
    ring
  · push_cast
    rfl

-- The groups from `count` on are the sign, in a signed number of `7 * count` bits besides it.
theorem signed_number_rest (groups : List UInt8) (count : Nat) (low : -2 ^ (7 * count) ≤ signedNumber groups)
    (high : signedNumber groups < 2 ^ (7 * count)) :
    ∀ b ∈ groups.drop count, payload b = 0 ∨ payload b = 0x7f := by
  have full : (0x7f : UInt64).toNat = 127 := rfl
  simp only [payload_eq, full, UInt64.toNat_zero]
  induction groups generalizing count with
  | nil => simp
  | cons b rest ih =>
      by_cases last : rest = []
      · subst last
        rw [signed_number_single] at low high
        cases count with
        | zero =>
            rw [Nat.mul_zero, pow_zero] at low high
            simp only [List.drop_zero, List.mem_singleton, forall_eq]
            omega
        | succ count => simp
      · rw [signed_number_cons b last] at low high
        cases count with
        | zero =>
            rw [Nat.mul_zero, pow_zero] at low high
            have behind := ih 0 (by rw [Nat.mul_zero, pow_zero]; omega) (by rw [Nat.mul_zero, pow_zero]; omega)
            rw [List.drop_zero] at behind ⊢
            exact List.forall_mem_cons.mpr ⟨by omega, behind⟩
        | succ count =>
            have wide : (2 : Int) ^ (7 * (count + 1)) = 2 ^ (7 * count) * 128 := pow_add 2 (7 * count) 7
            rw [wide] at low high
            exact ih count (by omega) (by omega)

end Numbers

/-! What a decoder yields for the groups of a number. -/
section Groups

variable {acc : UInt64} {shift : Nat}

theorem gather_below (b : UInt8) (below : acc.toNat < 2 ^ shift) :
    (gather acc shift b).toNat < 2 ^ (shift + 7) := by
  unfold gather
  split
  next inWord => exact place_below b below inWord
  next => exact below.trans_le (Nat.pow_le_pow_right (by decide) (Nat.le_add_right _ _))

theorem gather_wraps (b : UInt8) (below : acc.toNat < 2 ^ shift) :
    Wraps (gather acc shift b) (acc.toNat + (b.toNat % 128 : Nat) * 2 ^ shift) := by
  unfold gather
  split
  next inWord => exact place_wraps b below inWord
  next beyond =>
    have split : (2 : Int) ^ shift = 2 ^ (shift - 64) * 2 ^ 64 := by
      rw [← pow_add]
      congr 1
      omega
    refine ⟨-((b.toNat % 128 : Nat) * 2 ^ (shift - 64)), ?_⟩
    rw [split]
    ring

theorem wraps_further {word : UInt64} {m n : Int} (first : Wraps acc n) (second : Wraps word (acc.toNat + m)) :
    Wraps word (n + m) := by
  obtain ⟨k, value⟩ := first
  obtain ⟨k', value'⟩ := second
  refine ⟨k + k', ?_⟩
  rw [value', value]
  ring

variable {empty : UInt64 → Bool} {done : UInt64 → Nat → UInt8 → α}
  {decoder : Nat → UInt64 → List UInt8 → Except Defect α × List UInt8}

/-- When `count` groups are read, those of the groups that follow and lie beyond the word have the
property. -/
def Beyond (count : Nat) (holds : UInt8 → Prop) (groups : List UInt8) : Prop :=
  ∀ b ∈ groups.drop (10 - count), holds b

theorem beyond_cons {holds : UInt8 → Prop} (count : Nat) (b : UInt8) (rest : List UInt8) :
    Beyond count holds (b :: rest) ↔ (64 ≤ 7 * count → holds b) ∧ Beyond (count + 1) holds rest := by
  unfold Beyond
  by_cases inWord : count < 10
  · have room : 10 - count = 10 - (count + 1) + 1 := by omega
    have before : ¬ 64 ≤ 7 * count := by omega
    simp [room, before]
  · have room : 10 - count = 0 := by omega
    have further : 10 - (count + 1) = 0 := by omega
    have beyond : 64 ≤ 7 * count := by omega
    simp [room, further, beyond]

theorem groups_read (decodes : Decodes empty done decoder) {groups : List UInt8} (whole : Whole groups)
    (rest : List UInt8) (count : Nat) (acc : UInt64) (below : acc.toNat < 2 ^ (7 * count))
    (read : Beyond count (fun b => empty (payload b) = true) groups) :
    ∃ word last, groups.getLast? = some last ∧
      decoder (7 * count) acc (groups ++ rest) = (.ok (done word (7 * (count + groups.length)) last), rest) ∧
      Wraps word (acc.toNat + number groups * 2 ^ (7 * count)) ∧
      word.toNat < 2 ^ (7 * (count + groups.length)) := by
  induction whole generalizing count acc with
  | last b ends =>
      refine ⟨gather acc (7 * count) b, b, rfl, ?_, ?_, gather_below b below⟩
      · rw [List.singleton_append, decodes.reads b rest ((beyond_cons count b []).mp read).1, ends]
        rfl
      · exact gather_wraps b below
  | more b groups goes whole ih =>
      obtain ⟨here, behind⟩ := (beyond_cons count b groups).mp read
      obtain ⟨word, last, found, yields, wraps, bound⟩ :=
        ih (count + 1) (gather acc (7 * count) b) (gather_below b below) behind
      have length : count + (b :: groups).length = count + 1 + groups.length := by
        rw [List.length_cons, Nat.add_assoc, Nat.add_comm 1]
      rw [length]
      refine ⟨word, last, ?_, ?_, ?_, bound⟩
      · rw [List.getLast?_cons, found]
        rfl
      · rw [List.cons_append, decodes.reads b _ here, goes]
        exact yields
      · have parts : (number (b :: groups) : Int) * 2 ^ (7 * count) =
            (b.toNat % 128 : Nat) * 2 ^ (7 * count) + number groups * 2 ^ (7 * (count + 1)) := by
          rw [number, Nat.mul_succ, pow_add]
          push_cast
          ring
        rw [parts, ← Int.add_assoc]
        exact wraps_further (gather_wraps b below) wraps

/-- All groups of a number are gathered in a word that holds it, but for what is cut off. -/
theorem number_read (decodes : Decodes empty done decoder) {groups : List UInt8} (whole : Whole groups)
    (rest : List UInt8) (read : Beyond 0 (fun b => empty (payload b) = true) groups) :
    ∃ word last, groups.getLast? = some last ∧
      decoder 0 0 (groups ++ rest) = (.ok (done word (7 * groups.length) last), rest) ∧
      Wraps word (number groups) ∧ word.toNat < 2 ^ (7 * groups.length) := by
  obtain ⟨word, last, found, yields, wraps, bound⟩ := groups_read decodes whole rest 0 0 Nat.one_pos read
  rw [Nat.zero_add] at yields bound
  rw [UInt64.toNat_zero, Nat.cast_zero, zero_add, Nat.mul_zero, pow_zero, Int.mul_one] at wraps
  exact ⟨word, last, found, yields, wraps, bound⟩

theorem sign_extended {groups : List UInt8} {word : UInt64} {last : UInt8}
    (found : groups.getLast? = some last) (bound : word.toNat < 2 ^ (7 * groups.length))
    (wraps : Wraps word (number groups)) :
    Wraps (extend word (7 * groups.length) last) (signedNumber groups) := by
  have extended := extend_wraps last bound wraps
  rw [signedNumber, found, Option.any_some, negative_iff]
  simpa using extended

theorem groups_refused (decodes : Decodes empty done decoder) {groups : List UInt8} (whole : Whole groups)
    (rest : List UInt8) (count : Nat) (acc : UInt64)
    (lost : ¬ Beyond count (fun b => empty (payload b) = true) groups) :
    ∃ left, decoder (7 * count) acc (groups ++ rest) = (.error .tooLarge, left) := by
  induction whole generalizing count acc with
  | last b ends =>
      have full : ¬ (64 ≤ 7 * count → empty (payload b) = true) := by
        intro read
        exact lost ((beyond_cons count b []).mpr ⟨read, by simp [Beyond]⟩)
      exact ⟨rest, decodes.refuses b rest full⟩
  | more b groups goes whole ih =>
      by_cases read : 64 ≤ 7 * count → empty (payload b) = true
      · rw [List.cons_append, decodes.reads b _ read, goes]
        exact ih (count + 1) _ fun behind => lost ((beyond_cons count b groups).mpr ⟨read, behind⟩)
      · exact ⟨_, decodes.refuses b _ read⟩

-- Where every group announces another one the bytes run out, if nothing is refused before.
theorem endless_refused (decodes : Decodes empty done decoder) (bytes : List UInt8)
    (endless : ∀ b ∈ bytes, continues b = true) (shift : Nat) (acc : UInt64) :
    ∃ defect left, decoder shift acc bytes = (.error defect, left) := by
  induction bytes generalizing shift acc with
  | nil => exact ⟨_, _, decodes.nothing shift acc⟩
  | cons b rest ih =>
      obtain ⟨goes, behind⟩ := List.forall_mem_cons.mp endless
      by_cases read : 64 ≤ shift → empty (payload b) = true
      · rw [decodes.reads b rest read, goes]
        exact ih behind _ _
      · exact ⟨_, _, decodes.refuses b rest read⟩

end Groups

/-! How far bits are counted. The machine that stops has a half word with a sign for the bit position. -/
section Counting

theorem whole_count {groups : List UInt8} (whole : Whole groups) (rest : List UInt8) :
    groupCount (groups ++ rest) = groups.length := by
  induction whole with
  | last b ends => rw [List.singleton_append, groupCount, ends]; rfl
  | more b groups goes whole ih => rw [List.cons_append, groupCount, if_pos goes, ih, List.length_cons]

-- If no group is refused, there is one behind which seven bits more are too many.
theorem checked_groups_overflow {empty : UInt64 → Bool} {last : UInt64 → Nat → UInt8 → Except Trap α}
    {groups : List UInt8} (whole : Whole groups) (rest : List UInt8) (tooLarge : Fault) (fuel count : Nat)
    (acc : UInt64) (offset : Nat) (endian : Endian) (enough : groups.length < fuel)
    (addressable : offset + (groups ++ rest).length < Checked.wordLimit)
    (read : Beyond count (fun b => empty (payload b) = true) groups)
    (large : Checked.bitLimit ≤ 7 * (count + groups.length)) :
    (Checked.readGroups empty tooLarge last fuel (7 * count) acc).run ⟨groups ++ rest, offset, endian⟩ =
      .error .overflow := by
  obtain ⟨fuel, rfl⟩ := Nat.exists_eq_add_one_of_ne_zero (Nat.ne_zero_of_lt enough)
  induction whole generalizing fuel count acc offset with
  | last b ends =>
      have here := ((beyond_cons count b []).mp read).1
      rw [List.singleton_append] at addressable ⊢
      rw [checked_group_run tooLarge fuel acc endian addressable here]
      exact CheckedM.run_trap (sum_overflow large) _ _
  | more b groups goes whole ih =>
      obtain ⟨here, behind⟩ := (beyond_cons count b groups).mp read
      rw [List.cons_append] at addressable ⊢
      rw [checked_group_run tooLarge fuel acc endian addressable here]
      by_cases room : 7 * count + 7 < Checked.bitLimit
      · rw [List.length_cons] at enough addressable large
        obtain ⟨fuel, rfl⟩ := Nat.exists_eq_add_one_of_ne_zero (show fuel ≠ 0 by omega)
        rw [CheckedM.run_operation (sum_ok room), if_pos goes]
        exact ih (count + 1) _ (offset + 1) (by omega) behind (by omega) fuel (by omega)
      · exact CheckedM.run_trap (sum_overflow (Nat.le_of_not_lt room)) _ _

variable {groups rest : List UInt8} {cursor : Cursor} (whole : Whole groups) (split : cursor.data = groups ++ rest)

include whole split

theorem whole_counted : 7 * groupCount cursor.data < Checked.bitLimit ↔ groups.length ≤ 306783378 := by
  rw [split, whole_count whole rest, Checked.bitLimit]
  omega

theorem checked_leb_overflow {empty : UInt64 → Bool} {last : UInt64 → Nat → UInt8 → Except Trap α}
    (addressable : cursor.Addressable) (tooLarge : Fault)
    (read : Beyond 0 (fun b => empty (payload b) = true) groups) (large : 306783378 < groups.length) :
    (Checked.readLeb empty tooLarge last).run cursor = .error .overflow := by
  obtain ⟨data, offset, endian⟩ := cursor
  subst split
  refine checked_groups_overflow whole rest tooLarge _ 0 0 offset endian ?_ addressable read ?_
  · simp only [List.length_append]
    omega
  · rw [Checked.bitLimit]
    omega

end Counting

/-! The two decoders. -/
section Decoders

variable {groups : List UInt8}

theorem unsigned_beyond (groups : List UInt8) :
    Beyond 0 (fun b => (payload b == 0) = true) groups ↔ number groups < 2 ^ 70 := by
  rw [number_lt_iff groups 10]
  simp only [Beyond, beq_iff_eq]

/-- The decoder of unsigned numbers reads one of up to 70 bits, and yields what the word holds of it. -/
theorem unsigned_read (whole : Whole groups) (rest : List UInt8) (bound : number groups < 2 ^ 70) :
    unsigned (groups ++ rest) = (.ok (number groups).toUInt64, rest) := by
  obtain ⟨word, last, -, yields, wraps, -⟩ :=
    number_read unsigned_decodes whole rest ((unsigned_beyond groups).mpr bound)
  rw [← wraps_to_uint64 wraps]
  exact yields

theorem unsigned_refused (whole : Whole groups) (rest : List UInt8) (large : 2 ^ 70 ≤ number groups) :
    ∃ left, unsigned (groups ++ rest) = (.error .tooLarge, left) :=
  groups_refused unsigned_decodes whole rest 0 0 fun read =>
    Nat.not_lt.mpr large ((unsigned_beyond groups).mp read)

/-- All groups beyond the word are as empty as can be, with ones or with zeros. -/
def Padded (groups : List UInt8) : Prop := ∀ b ∈ groups.drop 10, payload b = 0 ∨ payload b = 0x7f

theorem signed_beyond (groups : List UInt8) :
    Beyond 0 (fun b => (payload b == 0 || payload b == 0x7f) = true) groups ↔ Padded groups := by
  simp only [Beyond, Padded, Bool.or_eq_true, beq_iff_eq, Nat.sub_zero]

/-- The decoder of signed numbers reads what is padded, and yields what the word holds of the number. -/
theorem signed_read (whole : Whole groups) (rest : List UInt8) (padded : Padded groups) :
    signed (groups ++ rest) = (.ok (Int64.ofInt (signedNumber groups)), rest) := by
  obtain ⟨word, last, found, yields, wraps, bound⟩ :=
    number_read signed_decodes whole rest ((signed_beyond groups).mpr padded)
  rw [← wraps_to_int64 (sign_extended found bound wraps)]
  exact yields

def InWord (n : Int) : Prop := -2 ^ 63 ≤ n ∧ n < 2 ^ 63

theorem in_word_padded (inWord : InWord (signedNumber groups)) : Padded groups := by
  unfold InWord at inWord
  exact signed_number_rest groups 10 (by omega) (by omega)

theorem signed_refused (whole : Whole groups) (rest : List UInt8) (unpadded : ¬ Padded groups) :
    ∃ left, signed (groups ++ rest) = (.error .tooLarge, left) :=
  groups_refused signed_decodes whole rest 0 0 fun read => unpadded ((signed_beyond groups).mp read)

end Decoders

/-! What is written. -/
section Writing

theorem byte_ends {n : Nat} (last : n < 128) : continues n.toUInt8 = false := by
  rw [continues_iff, byte_nat n (by omega)]
  exact decide_eq_false (Nat.not_le.mpr last)

theorem byte_goes {n : Nat} (more : 128 ≤ n) (short : n < 256) : continues n.toUInt8 = true := by
  rw [continues_iff, byte_nat n short]
  exact decide_eq_true more

theorem of_nat_whole (n : Nat) : Whole (ofNat n) := by
  induction n using ofNat.induct with
  | case1 n last =>
      rw [ofNat, if_pos last]
      exact .last _ (byte_ends last)
  | case2 n more ih =>
      rw [ofNat, if_neg more]
      exact .more _ _ (byte_goes (by omega) (by omega)) ih

theorem of_nat_number (n : Nat) : number (ofNat n) = n := by
  induction n using ofNat.induct with
  | case1 n last =>
      rw [ofNat, if_pos last, number, byte_nat n (by omega), number]
      omega
  | case2 n more ih =>
      rw [ofNat, if_neg more, number, byte_nat _ (by omega), ih]
      omega

theorem of_int_whole (n : Int) : Whole (ofInt n) := by
  induction n using ofInt.induct with
  | case1 n last =>
      rw [ofInt, if_pos last]
      exact .last _ (byte_ends (by omega))
  | case2 n more ih =>
      rw [ofInt, if_neg more]
      exact .more _ _ (byte_goes (by omega) (by omega)) ih

theorem of_int_number (n : Int) : signedNumber (ofInt n) = n := by
  induction n using ofInt.induct with
  | case1 n last =>
      rw [ofInt, if_pos last, signed_number_single, byte_nat _ (by omega)]
      split <;> omega
  | case2 n more ih =>
      rw [ofInt, if_neg more, signed_number_cons _ (whole_ne_nil (of_int_whole _)), byte_nat _ (by omega), ih]
      omega

theorem of_nat_length (n count : Nat) (bound : n < 2 ^ (7 * (count + 1))) : (ofNat n).length ≤ count + 1 := by
  induction n using ofNat.induct generalizing count with
  | case1 n last =>
      rw [ofNat, if_pos last, List.length_singleton]
      omega
  | case2 n more ih =>
      rw [ofNat, if_neg more, List.length_cons]
      cases count with
      | zero => exact absurd bound more
      | succ count =>
          have wide : 2 ^ (7 * (count + 1 + 1)) = 2 ^ (7 * (count + 1)) * 128 := Nat.pow_add 2 (7 * (count + 1)) 7
          rw [wide] at bound
          exact Nat.succ_le_succ (ih count (by omega))

theorem of_int_length (n : Int) (count : Nat) (low : -2 ^ (7 * count + 6) ≤ n) (high : n < 2 ^ (7 * count + 6)) :
    (ofInt n).length ≤ count + 1 := by
  induction n using ofInt.induct generalizing count with
  | case1 n last =>
      rw [ofInt, if_pos last, List.length_singleton]
      omega
  | case2 n more ih =>
      rw [ofInt, if_neg more, List.length_cons]
      cases count with
      | zero => exact absurd ⟨low, high⟩ more
      | succ count =>
          have wide : (2 : Int) ^ (7 * (count + 1) + 6) = 2 ^ (7 * count + 6) * 128 := pow_add 2 (7 * count + 6) 7
          rw [wide] at low high
          exact Nat.succ_le_succ (ih count (by omega) (by omega))

/-- What is read of an unsigned word that was written is the word, and what follows is left. -/
theorem unsigned_of_uint64 (n : UInt64) (rest : List UInt8) :
    unsigned (ofUInt64 n ++ rest) = (.ok n, rest) := by
  have same := of_nat_number n.toNat
  have bound := n.toNat_lt
  rw [ofUInt64, unsigned_read (of_nat_whole _) rest (by omega), same]
  simp

/-- What is read of a signed word that was written is the word, and what follows is left. -/
theorem signed_of_int64 (n : Int64) (rest : List UInt8) :
    signed (ofInt64 n ++ rest) = (.ok n, rest) := by
  have same := of_int_number n.toInt
  have inWord : InWord (signedNumber (ofInt n.toInt)) := by
    rw [same]
    exact ⟨n.le_toInt, n.toInt_lt⟩
  have padded := in_word_padded inWord
  rw [ofInt64, signed_read (of_int_whole _) rest padded, same]
  simp

end Writing

end Leb128

/-! Reading at a cursor. -/
section AtCursor

open Leb128

variable {decoder : List UInt8 → Except Defect α × List UInt8}

theorem read_leb_groups (tooLarge : Fault) {cursor : Cursor} {groups rest : List UInt8} {word : α}
    (split : cursor.data = groups ++ rest) (yields : decoder (groups ++ rest) = (.ok word, rest)) :
    (readLeb decoder tooLarge).run cursor = (.ok word, cursor.advance groups.length) := by
  rw [read_leb_run, split, yields, Cursor.advance, split, List.drop_left, List.length_append, Nat.add_sub_cancel]
  rfl

theorem read_leb_error (tooLarge : Fault) {cursor : Cursor} {defect : Defect} {left : List UInt8}
    (yields : decoder cursor.data = (.error defect, left)) :
    ∃ rest, (readLeb decoder tooLarge).run cursor = (.error (defect.fault tooLarge), rest) := by
  rw [read_leb_run, yields]
  exact ⟨_, rfl⟩

/-- If the number fits, the step takes its `count` bytes and answers it as a word; if not, it fails. -/
def ReadM.ExactOrRefused (read : ReadM α) (cursor : Cursor) (count : Nat) (fits : Prop) (word : α) : Prop :=
  (fits → read.run cursor = (.ok word, cursor.advance count)) ∧
    (¬ fits → ∃ fault, read.value cursor = .error fault)

theorem fits_of_answer {read : ReadM α} {cursor left : Cursor} {count : Nat} {fits : Prop} {word answer : α}
    (exact : read.ExactOrRefused cursor count fits word) (answered : read.run cursor = (.ok answer, left)) :
    fits := by
  by_contra large
  obtain ⟨fault, failed⟩ := exact.2 large
  rw [ReadM.value, answered] at failed
  cases failed

theorem exact_or_refused_iff {read : ReadM α} {cursor : Cursor} {count : Nat} {fits accepted : Prop} {word : α}
    {fault : Fault} (takes : accepted → read.run cursor = (.ok word, cursor.advance count))
    (refuses : ¬ accepted → ∃ left, read.run cursor = (.error fault, left)) (holds : fits → accepted) :
    read.ExactOrRefused cursor count fits word ↔ fits ∨ ¬ accepted := by
  constructor
  · intro exact
    by_cases accept : accepted
    · exact .inl (fits_of_answer exact (takes accept))
    · exact .inr accept
  · intro apart
    refine ⟨fun fitting => takes (holds fitting), fun large => ?_⟩
    obtain ⟨left, failed⟩ := refuses (apart.resolve_left large)
    exact ⟨fault, congrArg Prod.fst failed⟩

/-- An unsigned number of up to 70 bits is read, however many groups it has, and what the word holds of it
is answered. A larger one is refused, and so are bytes without a last group. So numbers are read as they
are or refused, but for those of 65 to 70 bits. -/
theorem unsigned_read_exact (cursor : Cursor) :
    (∀ groups rest, Whole groups → cursor.data = groups ++ rest →
      (number groups < 2 ^ 70 →
        readUnsigned.run cursor = (.ok (number groups).toUInt64, cursor.advance groups.length)) ∧
      (2 ^ 70 ≤ number groups → ∃ left, readUnsigned.run cursor = (.error .unsignedTooLarge, left)) ∧
      (readUnsigned.ExactOrRefused cursor groups.length (number groups < 2 ^ 64) (number groups).toUInt64 ↔
        number groups < 2 ^ 64 ∨ 2 ^ 70 ≤ number groups)) ∧
    ((∀ b ∈ cursor.data, continues b = true) → ∃ fault, readUnsigned.value cursor = .error fault) := by
  constructor
  · intro groups rest whole split
    have takes (bound : number groups < 2 ^ 70) :
        readUnsigned.run cursor = (.ok (number groups).toUInt64, cursor.advance groups.length) :=
      read_leb_groups .unsignedTooLarge split (unsigned_read whole rest bound)
    have refuses (large : ¬ number groups < 2 ^ 70) :
        ∃ left, readUnsigned.run cursor = (.error .unsignedTooLarge, left) := by
      obtain ⟨left, yields⟩ := unsigned_refused whole rest (Nat.le_of_not_lt large)
      exact read_leb_error .unsignedTooLarge (split ▸ yields)
    refine ⟨takes, fun large => refuses (Nat.not_lt.mpr large), ?_⟩
    rw [← Nat.not_lt]
    exact exact_or_refused_iff takes refuses fun fits => fits.trans (by decide)
  · intro endless
    obtain ⟨defect, left, yields⟩ : ∃ defect left, unsigned cursor.data = (.error defect, left) :=
      endless_refused unsigned_decodes cursor.data endless 0 0
    obtain ⟨rest, failed⟩ := read_leb_error .unsignedTooLarge yields
    exact ⟨_, congrArg Prod.fst failed⟩

/-- The bit position of a number stays in range for 306783378 groups. With more of them the machine that
stops has no sum for it, unless the number is refused before. -/
theorem unsigned_bits_counted {cursor : Cursor} (addressable : cursor.Addressable) {groups rest : List UInt8}
    (whole : Whole groups) (split : cursor.data = groups ++ rest) :
    (groups.length ≤ 306783378 → Checked.readUnsigned.run cursor = .ok (readUnsigned.run cursor)) ∧
      (306783378 < groups.length → number groups < 2 ^ 70 →
        Checked.readUnsigned.run cursor = .error .overflow) := by
  constructor
  · intro counted
    exact checked_unsigned_run addressable ((whole_counted whole split).mpr counted)
  · intro large bound
    exact checked_leb_overflow whole split addressable _ ((unsigned_beyond groups).mpr bound) large

-- The number 624485 in twelve groups, of which nine are empty, and a byte that is not part of it.
theorem unsigned_read_redundant :
    let groups := [0xe5, 0x8e, 0xa6] ++ List.replicate 8 0x80 ++ [0x00]
    let cursor : Cursor := ⟨groups ++ [0x7f], 5, .big⟩
    Whole groups ∧ number groups = 624485 ∧ readUnsigned.run cursor = (.ok 624485, ⟨[0x7f], 17, .big⟩) := by
  intro groups cursor
  have whole : Whole groups := whole_append rfl rfl
  have value : number groups = 624485 := by decide
  have read := ((unsigned_read_exact cursor).1 groups [0x7f] whole rfl).1 (by rw [value]; decide)
  rw [value] at read
  exact ⟨whole, value, read⟩

-- The tenth group has a bit that is not in the word. Nothing is left of the number, and nothing is refused.
theorem tenth_group_cut :
    let groups := List.replicate 9 0x80 ++ [0x02]
    let cursor : Cursor := ⟨groups, 0, .little⟩
    Whole groups ∧ number groups = 2 ^ 64 ∧ readUnsigned.run cursor = (.ok 0, ⟨[], 10, .little⟩) ∧
      ¬ readUnsigned.ExactOrRefused cursor groups.length (number groups < 2 ^ 64) (number groups).toUInt64 := by
  intro groups cursor
  have read : readUnsigned.run cursor = (.ok 0, ⟨[], 10, .little⟩) := rfl
  have value : number groups = 2 ^ 64 := by decide
  refine ⟨whole_append rfl rfl, value, read, fun exact => ?_⟩
  have fits := fits_of_answer exact read
  rw [value] at fits
  exact Nat.lt_irrefl _ fits

/-- A signed number is read if the groups beyond the word are padding, and what the word holds of it is
answered. With more than padding there it is refused, and so are bytes without a last group. So numbers are
read as they are or refused, but for those that do not fit and have only padding beyond the word. -/
theorem signed_read_exact (cursor : Cursor) :
    (∀ groups rest, Whole groups → cursor.data = groups ++ rest →
      (Padded groups →
        readSigned.run cursor = (.ok (Int64.ofInt (signedNumber groups)), cursor.advance groups.length)) ∧
      (¬ Padded groups → ∃ left, readSigned.run cursor = (.error .signedTooLarge, left)) ∧
      (readSigned.ExactOrRefused cursor groups.length (InWord (signedNumber groups))
          (Int64.ofInt (signedNumber groups)) ↔
        InWord (signedNumber groups) ∨ ¬ Padded groups)) ∧
    ((∀ b ∈ cursor.data, continues b = true) → ∃ fault, readSigned.value cursor = .error fault) := by
  constructor
  · intro groups rest whole split
    have takes (padded : Padded groups) :
        readSigned.run cursor = (.ok (Int64.ofInt (signedNumber groups)), cursor.advance groups.length) :=
      read_leb_groups .signedTooLarge split (signed_read whole rest padded)
    have refuses (unpadded : ¬ Padded groups) :
        ∃ left, readSigned.run cursor = (.error .signedTooLarge, left) := by
      obtain ⟨left, yields⟩ := signed_refused whole rest unpadded
      exact read_leb_error .signedTooLarge (split ▸ yields)
    exact ⟨takes, refuses, exact_or_refused_iff takes refuses in_word_padded⟩
  · intro endless
    obtain ⟨defect, left, yields⟩ : ∃ defect left, signed cursor.data = (.error defect, left) :=
      endless_refused signed_decodes cursor.data endless 0 0
    obtain ⟨rest, failed⟩ := read_leb_error .signedTooLarge yields
    exact ⟨_, congrArg Prod.fst failed⟩

/-- The bit position of a signed number stays in range for as many groups. -/
theorem signed_bits_counted {cursor : Cursor} (addressable : cursor.Addressable) {groups rest : List UInt8}
    (whole : Whole groups) (split : cursor.data = groups ++ rest) :
    (groups.length ≤ 306783378 → Checked.readSigned.run cursor = .ok (readSigned.run cursor)) ∧
      (306783378 < groups.length → Padded groups → Checked.readSigned.run cursor = .error .overflow) := by
  constructor
  · intro counted
    exact checked_signed_run addressable ((whole_counted whole split).mpr counted)
  · intro large padded
    exact checked_leb_overflow whole split addressable _ ((signed_beyond groups).mpr padded) large

-- The number -128 in twelve groups, of which all but the first hold nothing but its sign.
theorem signed_read_redundant :
    let groups := [0x80] ++ List.replicate 10 0xff ++ [0x7f]
    let cursor : Cursor := ⟨groups ++ [0x00], 0, .little⟩
    Whole groups ∧ InWord (signedNumber groups) ∧ signedNumber groups = -128 ∧
      readSigned.run cursor = (.ok (-128), ⟨[0x00], 12, .little⟩) := by
  intro groups cursor
  have whole : Whole groups := whole_append rfl rfl
  have value : signedNumber groups = -128 := by decide
  have inWord : InWord (signedNumber groups) := by
    rw [value]
    exact ⟨by decide, by decide⟩
  have read := ((signed_read_exact cursor).1 groups [0x00] whole rfl).1 (in_word_padded inWord)
  rw [value] at read
  exact ⟨whole, inWord, value, read⟩

-- The number is one more than the greatest signed word, and what is read is the least one.
theorem sign_flipped :
    let groups := List.replicate 9 0x80 ++ [0x01]
    let cursor : Cursor := ⟨groups, 0, .little⟩
    Whole groups ∧ signedNumber groups = 2 ^ 63 ∧
      readSigned.run cursor = (.ok (-0x8000000000000000), ⟨[], 10, .little⟩) ∧
      ¬ readSigned.ExactOrRefused cursor groups.length (InWord (signedNumber groups))
        (Int64.ofInt (signedNumber groups)) := by
  intro groups cursor
  have read : readSigned.run cursor = (.ok (-0x8000000000000000), ⟨[], 10, .little⟩) := rfl
  have value : signedNumber groups = 2 ^ 63 := by decide
  refine ⟨whole_append rfl rfl, value, read, fun exact => ?_⟩
  have fits := fits_of_answer exact read
  rw [value] at fits
  exact Int.lt_irrefl _ fits.2

theorem written_unsigned (n : UInt64) (rest : List UInt8) (offset : Nat) (endian : Endian) :
    readUnsigned.run ⟨ofUInt64 n ++ rest, offset, endian⟩ =
      (.ok n, ⟨rest, offset + (ofUInt64 n).length, endian⟩) := by
  rw [← advance_append]
  exact read_leb_groups .unsignedTooLarge rfl (unsigned_of_uint64 n rest)

theorem written_signed (n : Int64) (rest : List UInt8) (offset : Nat) (endian : Endian) :
    readSigned.run ⟨ofInt64 n ++ rest, offset, endian⟩ =
      (.ok n, ⟨rest, offset + (ofInt64 n).length, endian⟩) := by
  rw [← advance_append]
  exact read_leb_groups .signedTooLarge rfl (signed_of_int64 n rest)

/-- What is read of a number that was written is the number, and the cursor is left before what follows.
The offset is a word wherever the section has fewer bytes than there are words (`written_in_range`). -/
theorem reading_undoes_writing (offset : Nat) (endian : Endian) (rest : List UInt8) :
    (∀ n : UInt64, readUnsigned.run ⟨ofUInt64 n ++ rest, offset, endian⟩ =
      (.ok n, ⟨rest, offset + (ofUInt64 n).length, endian⟩)) ∧
    (∀ n : Int64, readSigned.run ⟨ofInt64 n ++ rest, offset, endian⟩ =
      (.ok n, ⟨rest, offset + (ofInt64 n).length, endian⟩)) :=
  ⟨fun n => written_unsigned n rest offset endian, fun n => written_signed n rest offset endian⟩

/-- On the machine that stops a number that was written is read as well, anywhere in a section: it has ten
groups at most, and the offset behind it is a word. -/
theorem written_in_range (offset : Nat) (endian : Endian) (rest : List UInt8) :
    (∀ n : UInt64, Cursor.Addressable ⟨ofUInt64 n ++ rest, offset, endian⟩ →
      Checked.readUnsigned.run ⟨ofUInt64 n ++ rest, offset, endian⟩ =
        .ok (.ok n, ⟨rest, offset + (ofUInt64 n).length, endian⟩) ∧
      offset + (ofUInt64 n).length < 2 ^ 64) ∧
    (∀ n : Int64, Cursor.Addressable ⟨ofInt64 n ++ rest, offset, endian⟩ →
      Checked.readSigned.run ⟨ofInt64 n ++ rest, offset, endian⟩ =
        .ok (.ok n, ⟨rest, offset + (ofInt64 n).length, endian⟩) ∧
      offset + (ofInt64 n).length < 2 ^ 64) := by
  have word (groups : List UInt8) (addressable : Cursor.Addressable ⟨groups ++ rest, offset, endian⟩) :
      offset + groups.length < 2 ^ 64 := by
    simp only [Cursor.Addressable, Checked.wordLimit, List.length_append] at addressable
    omega
  constructor
  · intro n addressable
    have short : (ofUInt64 n).length ≤ 10 := of_nat_length n.toNat 9 (n.toNat_lt.trans (by decide))
    refine ⟨?_, word _ addressable⟩
    rw [← written_unsigned]
    exact (unsigned_bits_counted addressable (of_nat_whole _) rfl).1 (short.trans (by decide))
  · intro n addressable
    have low := n.le_toInt
    have high := n.toInt_lt
    have short : (ofInt64 n).length ≤ 10 := of_int_length n.toInt 9 (by omega) (by omega)
    refine ⟨?_, word _ addressable⟩
    rw [← written_signed]
    exact (signed_bits_counted addressable (of_int_whole _) rfl).1 (short.trans (by decide))

end AtCursor

end CallFrame
