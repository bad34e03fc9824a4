import CallFrame.Proofs.CheckedReading
import CallFrame.Proofs.Parsing

/-!
Reading never stops the machine. What a cursor has left ends within the section it is from, and no step
moves it out of there. In a section of fewer bytes than the bit count of a number can take, every
operation has a result then, and the parsers yield what they yield elsewhere.
-/

namespace CallFrame

def Cursor.Within (size : Nat) (cursor : Cursor) : Prop := cursor.offset + cursor.data.length ≤ size

/-- Wherever the cursor is within the section, the machine does not stop, the step has the same outcome
on it, and the cursor stays within the section. -/
def Agrees (size : Nat) (checked : CheckedM α) (read : ReadM α) : Prop :=
  ∀ cursor : Cursor, cursor.Within size →
    checked.run cursor = .ok (read.run cursor) ∧ (read.run cursor).2.Within size

/-- A parser stays within the section. -/
theorem advances_within {read : ReadM α} (advances : read.Advances) {size : Nat} {cursor : Cursor}
    (within : cursor.Within size) : (read.run cursor).2.Within size := by
  obtain ⟨count, inside, left⟩ := advances cursor
  unfold Cursor.Within at within ⊢
  rw [left, advance_length]
  simp only [Cursor.advance]
  omega

/-! Operations that have a result. -/
section Operations

theorem require_ok {allowed : Prop} [Decidable allowed] (holds : allowed) (trap : Trap) (value : α) :
    Checked.require allowed trap value = .ok value :=
  if_pos holds

theorem split_ok {bytes : List UInt8} {place : Nat} (inside : place ≤ bytes.length) :
    Checked.split bytes place = .ok (bytes.take place, bytes.drop place) :=
  require_ok inside _ _

theorem sum_ok {limit a b : Nat} (fits : a + b < limit) : Checked.sum limit a b = .ok (a + b) :=
  require_ok fits _ _

theorem sum_overflow {limit a b : Nat} (large : limit ≤ a + b) : Checked.sum limit a b = .error .overflow :=
  if_neg (Nat.not_lt.mpr large)

theorem product_ok {limit a b : Nat} (fits : a * b < limit) : Checked.product limit a b = .ok (a * b) :=
  require_ok fits _ _

theorem difference_ok {a b : Nat} (ordered : b ≤ a) : Checked.difference a b = .ok (a - b) :=
  require_ok ordered _ _

theorem remainder_ok {a b : Nat} (some : b ≠ 0) : Checked.remainder a b = .ok (a % b) :=
  require_ok some _ _

theorem shift_left_ok {amount : Nat} (word : UInt64) (low : amount < 64) :
    Checked.shiftLeft word amount = .ok (word <<< amount.toUInt64) :=
  require_ok low _ _

theorem after_ok {operation : Except Trap α} {value : α} (done : operation = .ok value)
    (follow : α → Except Trap β) : (operation >>= follow) = follow value := by
  rw [done]
  rfl

theorem CheckedE.run_operation {operation : Except Trap α} {value : α} (done : operation = .ok value)
    (follow : α → CheckedE β) :
    ((liftM operation : CheckedE α) >>= follow).run = (follow value).run := by
  rw [done]
  rfl

theorem CheckedE.run_bind {first : CheckedE α} {result : Except Fault α}
    (ran : first.run = .ok result) {follow : α → CheckedE β} {rest : α → Except Fault β}
    (each : ∀ value, result = .ok value → (follow value).run = .ok (rest value)) :
    (first >>= follow).run = .ok (result >>= rest) := by
  change (first.run >>= ExceptT.bindCont follow) = _
  rw [ran]
  cases result with
  | error fault => rfl
  | ok value => exact each value rfl

theorem CheckedM.run_operation {operation : Except Trap α} {value : α} (done : operation = .ok value)
    (follow : α → CheckedM β) (cursor : Cursor) :
    ((liftM operation : CheckedM α) >>= follow).run cursor = (follow value).run cursor := by
  rw [done]
  rfl

theorem CheckedM.run_trap {operation : Except Trap α} {trap : Trap} (stops : operation = .error trap)
    (follow : α → CheckedM β) (cursor : Cursor) :
    ((liftM operation : CheckedM α) >>= follow).run cursor = .error trap := by
  rw [stops]
  rfl

theorem CheckedM.run_bind {read : CheckedM α} {value : α} {cursor rest : Cursor}
    (ran : read.run cursor = .ok (.ok value, rest)) (follow : α → CheckedM β) :
    (read >>= follow).run cursor = (follow value).run rest := by
  change (read.run cursor >>= fun after => (ExceptT.bindCont follow after.1).run after.2) = _
  rw [ran]
  rfl

theorem CheckedM.run_bind_error {read : CheckedM α} {fault : Fault} {cursor rest : Cursor}
    (ran : read.run cursor = .ok (.error fault, rest)) (follow : α → CheckedM β) :
    (read >>= follow).run cursor = .ok (.error fault, rest) := by
  change (read.run cursor >>= fun after => (ExceptT.bindCont follow after.1).run after.2) = _
  rw [ran]
  rfl

theorem CheckedM.run_discard {read : CheckedM α} {cursor : Cursor} {outcome : Except Fault α × Cursor}
    (ran : read.run cursor = .ok outcome) :
    (discard read).run cursor = .ok (outcome.1.map fun _ => (), outcome.2) := by
  change ((fun _ => ()) <$> read).run cursor = _
  rw [map_eq_pure_bind]
  rcases outcome with ⟨fault | value, rest⟩
  · exact CheckedM.run_bind_error ran _
  · rw [CheckedM.run_bind ran]
    rfl

theorem CheckedM.run_get (cursor : Cursor) :
    (get : CheckedM Cursor).run cursor = .ok (.ok cursor, cursor) := rfl

end Operations

/-! Steps that agree, put together. -/
section Composition

variable {size : Nat}

theorem agrees_pure (value : α) : Agrees size (pure value) (pure value) := by
  intro cursor within
  exact ⟨rfl, within⟩

theorem agrees_throw (fault : Fault) : Agrees size (throw fault : CheckedM α) (throw fault) := by
  intro cursor within
  exact ⟨rfl, within⟩

theorem agrees_lift (result : Except Fault α) :
    Agrees size (liftM result : CheckedM α) (liftM result) := by
  intro cursor within
  exact ⟨rfl, within⟩

theorem agrees_get : Agrees size (get : CheckedM Cursor) get := by
  intro cursor within
  exact ⟨rfl, within⟩

theorem agrees_bind {checked : CheckedM α} {read : ReadM α} {checkedRest : α → CheckedM β}
    {rest : α → ReadM β} (first : Agrees size checked read)
    (second : ∀ value, Agrees size (checkedRest value) (rest value)) :
    Agrees size (checked >>= checkedRest) (read >>= rest) := by
  intro cursor within
  obtain ⟨same, stays⟩ := first cursor within
  rw [ReadM.run_bind]
  rcases ran : read.run cursor with ⟨fault | value, after⟩ <;> rw [ran] at same stays
  · exact ⟨CheckedM.run_bind_error same _, stays⟩
  · rw [CheckedM.run_bind same]
    exact second value after stays

theorem agrees_map {checked : CheckedM α} {read : ReadM α} (change : α → β)
    (steps : Agrees size checked read) : Agrees size (change <$> checked) (change <$> read) := by
  rw [map_eq_pure_bind, map_eq_pure_bind]
  exact agrees_bind steps fun _ => agrees_pure _

theorem agrees_operation {operation : Except Trap α} {value : α} {checked : α → CheckedM β}
    {read : ReadM β} (done : operation = .ok value) (rest : Agrees size (checked value) read) :
    Agrees size (liftM operation >>= checked) read := by
  intro cursor within
  rw [CheckedM.run_operation done]
  exact rest cursor within

end Composition

/-! The steps that move the cursor. -/
section Steps

/-- No offset of what is left is too large for a word. -/
def Cursor.Addressable (cursor : Cursor) : Prop := cursor.offset + cursor.data.length < Checked.wordLimit

/-- Wherever a parser goes from there, offsets stay words. -/
theorem advances_addressable {read : ReadM α} (advances : read.Advances) {cursor : Cursor}
    (addressable : cursor.Addressable) : (read.run cursor).2.Addressable :=
  Nat.lt_of_le_of_lt (advances_within advances (Nat.le_refl _)) addressable

theorem checked_bytes_run {cursor : Cursor} (addressable : cursor.Addressable) (count : Nat) :
    (Checked.readBytes count).run cursor = .ok ((readBytes count).run cursor) := by
  rw [read_bytes_run, Checked.readBytes, CheckedM.run_bind (CheckedM.run_get cursor)]
  by_cases short : cursor.data.length < count
  · rw [if_pos short, if_pos short]
    rfl
  · have inside := Nat.le_of_not_lt short
    have fits : cursor.offset + count < Checked.wordLimit := by
      unfold Cursor.Addressable at addressable
      omega
    rw [if_neg short, if_neg short, CheckedM.run_operation (split_ok inside),
      CheckedM.run_operation (sum_ok fits)]
    rfl

theorem checked_byte_run (cursor : Cursor) (addressable : cursor.Addressable) :
    Checked.readByte.run cursor = .ok (readByte.run cursor) := by
  have bytes := checked_bytes_run addressable 1
  rw [read_bytes_run] at bytes
  rw [read_byte_run, Checked.readByte]
  cases known : cursor.data with
  | nil =>
      rw [known] at bytes
      exact CheckedM.run_bind_error bytes _
  | cons b rest =>
      rw [known] at bytes
      rw [CheckedM.run_bind bytes]
      rfl

theorem checked_word_run {cursor : Cursor} (addressable : cursor.Addressable) (width : Nat) :
    (Checked.readWord width).run cursor = .ok ((readWord width).run cursor) := by
  have bytes := checked_bytes_run addressable width
  rw [read_bytes_run] at bytes
  rw [read_word_run, Checked.readWord, CheckedM.run_bind (CheckedM.run_get cursor)]
  by_cases short : cursor.data.length < width
  · rw [if_pos short] at bytes ⊢
    exact CheckedM.run_bind_error bytes _
  · rw [if_neg short] at bytes ⊢
    have whole : (cursor.data.take width).length = width :=
      List.length_take_of_le (Nat.le_of_not_lt short)
    rw [CheckedM.run_bind bytes, CheckedM.run_operation (require_ok whole _ _)]
    rfl

theorem place_ok (acc : UInt64) {shift : Nat} (b : UInt8) (low : shift < 64) :
    Checked.place acc shift b = .ok (Leb128.place acc shift b) := by
  rw [Checked.place, shift_left_ok _ low]
  rfl

theorem extend_ok (acc : UInt64) (shift : Nat) (b : UInt8) :
    Checked.extend acc shift b = .ok (Leb128.extend acc shift b) := by
  unfold Checked.extend Leb128.extend
  split
  next negative =>
    have low : shift < 64 := by simp_all
    rw [shift_left_ok _ low]
    rfl
  next => rfl

/-- The groups of the number that the bytes begin with. All of them are, where none is the last one. -/
def Leb128.groupCount : List UInt8 → Nat
  | [] => 0
  | b :: rest => if continues b then groupCount rest + 1 else 1

theorem group_count_le (bytes : List UInt8) : Leb128.groupCount bytes ≤ bytes.length := by
  induction bytes with
  | nil => exact Nat.le_refl 0
  | cons b rest ih =>
      rw [Leb128.groupCount, List.length_cons]
      split <;> omega

section Groups

variable {empty : UInt64 → Bool} {last : UInt64 → Nat → UInt8 → Except Trap α} (tooLarge : Fault)
  {b : UInt8} {rest : List UInt8} (fuel : Nat) {shift : Nat} (acc : UInt64) {offset : Nat} (endian : Endian)

/-- A group that is read is counted: seven bits more. -/
theorem checked_group_run (addressable : offset + (b :: rest).length < Checked.wordLimit)
    (read : 64 ≤ shift → empty (Leb128.payload b) = true) :
    (Checked.readGroups empty tooLarge last (fuel + 1) shift acc).run ⟨b :: rest, offset, endian⟩ =
      (do
        let further ← Checked.sum Checked.bitLimit shift 7
        let acc := Leb128.gather acc shift b
        if Leb128.continues b then Checked.readGroups empty tooLarge last fuel further acc
        else last acc further b : CheckedM α).run ⟨rest, offset + 1, endian⟩ := by
  rw [Checked.readGroups, CheckedM.run_bind (checked_byte_run ⟨b :: rest, offset, endian⟩ addressable),
    Leb128.gather]
  by_cases low : shift < 64
  · rw [if_pos low, if_pos low, CheckedM.run_operation (place_ok acc b low)]
  · rw [if_neg low, if_neg low, read (Nat.le_of_not_lt low)]
    rfl

theorem checked_group_refused (addressable : offset + (b :: rest).length < Checked.wordLimit)
    (lost : ¬ (64 ≤ shift → empty (Leb128.payload b) = true)) :
    (Checked.readGroups empty tooLarge last (fuel + 1) shift acc).run ⟨b :: rest, offset, endian⟩ =
      .ok (.error tooLarge, ⟨rest, offset + 1, endian⟩) := by
  obtain ⟨beyond, full⟩ := Classical.not_imp.mp lost
  rw [Checked.readGroups, CheckedM.run_bind (checked_byte_run ⟨b :: rest, offset, endian⟩ addressable),
    if_neg (Nat.not_lt.mpr beyond), Bool.eq_false_iff.mpr full]
  rfl

end Groups

theorem checked_groups_run {empty : UInt64 → Bool} {done : UInt64 → Nat → UInt8 → α}
    {decoder : Nat → UInt64 → List UInt8 → Except Leb128.Defect α × List UInt8}
    (decodes : Leb128.Decodes empty done decoder) {last : UInt64 → Nat → UInt8 → Except Trap α}
    (ends : ∀ acc shift b, last acc shift b = .ok (done acc shift b)) (tooLarge : Fault)
    (bytes : List UInt8) (fuel shift : Nat) (acc : UInt64) (offset : Nat) (endian : Endian)
    (enough : bytes.length < fuel) (addressable : offset + bytes.length < Checked.wordLimit)
    (counted : shift + 7 * Leb128.groupCount bytes < Checked.bitLimit) :
    (Checked.readGroups empty tooLarge last fuel shift acc).run ⟨bytes, offset, endian⟩ =
      .ok ((decoder shift acc bytes).1.mapError (·.fault tooLarge),
        ⟨(decoder shift acc bytes).2,
          offset + (bytes.length - (decoder shift acc bytes).2.length), endian⟩) := by
  obtain ⟨fuel, rfl⟩ := Nat.exists_eq_add_one_of_ne_zero (Nat.ne_zero_of_lt enough)
  induction bytes generalizing fuel shift acc offset with
  | nil =>
      rw [decodes.nothing, Checked.readGroups,
        CheckedM.run_bind_error (checked_byte_run ⟨[], offset, endian⟩ addressable)]
      rfl
  | cons b rest ih =>
      have one : offset + 1 = offset + ((b :: rest).length - rest.length) := by
        simp only [List.length_cons]
        omega
      by_cases read : 64 ≤ shift → empty (Leb128.payload b) = true
      · rw [Leb128.groupCount] at counted
        have counts : Checked.sum Checked.bitLimit shift 7 = .ok (shift + 7) :=
          sum_ok (by split at counted <;> omega)
        rw [checked_group_run tooLarge fuel acc endian addressable read, CheckedM.run_operation counts,
          decodes.reads b rest read]
        by_cases more : Leb128.continues b
        · rw [List.length_cons] at enough addressable
          rw [if_pos more] at counted
          obtain ⟨fuel, rfl⟩ := Nat.exists_eq_add_one_of_ne_zero (show fuel ≠ 0 by omega)
          have shorter := (decodes.suffix (shift + 7) (Leb128.gather acc shift b) rest).length_le
          have behind : offset + 1 +
              (rest.length - (decoder (shift + 7) (Leb128.gather acc shift b) rest).2.length) =
              offset + ((b :: rest).length -
                (decoder (shift + 7) (Leb128.gather acc shift b) rest).2.length) := by
            rw [List.length_cons]
            omega
          rw [if_pos more, if_pos more,
            ih (shift + 7) _ (offset + 1) (by omega) (by omega) fuel (by omega), behind]
        · rw [if_neg more, if_neg more, ends, ← one]
          rfl
      · rw [checked_group_refused tooLarge fuel acc endian addressable read, decodes.refuses b rest read, one]
        rfl

def Cursor.Small (cursor : Cursor) : Prop :=
  cursor.Addressable ∧ 7 * cursor.data.length < Checked.bitLimit

theorem small_counted {cursor : Cursor} (small : cursor.Small) :
    7 * Leb128.groupCount cursor.data < Checked.bitLimit := by
  have counted := group_count_le cursor.data
  have bounded := small.2
  omega

theorem checked_leb_run {empty : UInt64 → Bool} {done : UInt64 → Nat → UInt8 → α}
    {decoder : Nat → UInt64 → List UInt8 → Except Leb128.Defect α × List UInt8}
    (decodes : Leb128.Decodes empty done decoder) {last : UInt64 → Nat → UInt8 → Except Trap α}
    (ends : ∀ acc shift b, last acc shift b = .ok (done acc shift b)) (tooLarge : Fault)
    {cursor : Cursor} (addressable : cursor.Addressable)
    (counted : 7 * Leb128.groupCount cursor.data < Checked.bitLimit) :
    (Checked.readLeb empty tooLarge last).run cursor =
      .ok ((readLeb (decoder 0 0) tooLarge).run cursor) := by
  rw [read_leb_run, Checked.readLeb, CheckedM.run_bind (CheckedM.run_get cursor)]
  exact checked_groups_run decodes ends tooLarge cursor.data _ 0 0 cursor.offset cursor.endian
    (Nat.lt_succ_self _) addressable (by omega)

theorem checked_unsigned_run {cursor : Cursor} (addressable : cursor.Addressable)
    (counted : 7 * Leb128.groupCount cursor.data < Checked.bitLimit) :
    Checked.readUnsigned.run cursor = .ok (readUnsigned.run cursor) :=
  checked_leb_run unsigned_decodes (fun _ _ _ => rfl) _ addressable counted

theorem checked_signed_run {cursor : Cursor} (addressable : cursor.Addressable)
    (counted : 7 * Leb128.groupCount cursor.data < Checked.bitLimit) :
    Checked.readSigned.run cursor = .ok (readSigned.run cursor) := by
  have ends (acc : UInt64) (shift : Nat) (b : UInt8) :
      (do return (← Checked.extend acc shift b).toInt64 : Except Trap Int64) =
        .ok (Leb128.extend acc shift b).toInt64 := by
    rw [extend_ok]
    rfl
  exact checked_leb_run signed_decodes ends _ addressable counted

theorem run_discard (read : ReadM α) (cursor : Cursor) :
    (discard read).run cursor = ((read.run cursor).1.map fun _ => (), (read.run cursor).2) := by
  change ((fun _ => ()) <$> read).run cursor = _
  rw [map_eq_pure_bind, ReadM.run_bind]
  rcases read.run cursor with ⟨fault | value, rest⟩ <;> rfl

theorem checked_text_run {cursor : Cursor} (addressable : cursor.Addressable) :
    Checked.readText.run cursor = .ok (readText.run cursor) := by
  rw [readText, Checked.readText, CheckedM.run_bind (CheckedM.run_get cursor), ReadM.run_bind,
    ReadM.run_get]
  dsimp only
  have before : cursor.data.takeWhile (· ≠ 0) <+: cursor.data := List.takeWhile_prefix _
  generalize cursor.data.takeWhile (· ≠ 0) = text at before ⊢
  by_cases unterminated : text.length = cursor.data.length
  · rw [if_pos unterminated, if_pos unterminated]
    rfl
  · have inside := before.length_le
    have terminated : ¬ cursor.data.length < text.length + 1 := by omega
    have fits : text.length + 1 < Checked.wordLimit := by
      unfold Cursor.Addressable at addressable
      omega
    have bytes := checked_bytes_run addressable (text.length + 1)
    rw [read_bytes_run, if_neg terminated] at bytes
    have long : text.length ≤ (cursor.data.take (text.length + 1)).length := by
      rw [List.length_take]
      omega
    have kept : (cursor.data.take (text.length + 1)).take text.length = text := by
      rw [List.take_take, Nat.min_eq_left (Nat.le_succ _)]
      exact (List.prefix_iff_eq_take.mp before).symm
    rw [if_neg unterminated, if_neg unterminated, CheckedM.run_operation (sum_ok fits),
      CheckedM.run_bind bytes, CheckedM.run_operation (split_ok long), ReadM.run_bind, run_discard,
      read_bytes_run, if_neg terminated]
    simp only [kept, Except.map]
    cases Utf8.decode text <;> rfl

theorem checked_align_run {cursor : Cursor} (addressable : cursor.Addressable) (size : UInt8) :
    (Checked.alignTo size).run cursor = .ok ((alignTo size).run cursor) := by
  rw [alignTo, Checked.alignTo, CheckedM.run_bind (CheckedM.run_get cursor), ReadM.run_bind,
    ReadM.run_get]
  by_cases zero : size = 0
  · simp only [if_pos zero]
    rfl
  · have positive : size.toNat ≠ 0 := by
      intro none
      exact zero (UInt8.toNat_inj.mp none)
    have past := Nat.mod_lt cursor.offset (Nat.pos_of_ne_zero positive)
    simp only [if_neg zero]
    rw [CheckedM.run_operation (remainder_ok positive)]
    by_cases aligned : cursor.offset % size.toNat ≠ 0
    · rw [if_pos aligned, if_pos aligned, CheckedM.run_operation (difference_ok (Nat.le_of_lt past)),
        CheckedM.run_discard (checked_bytes_run addressable _), run_discard]
    · rw [if_neg aligned, if_neg aligned]
      rfl

theorem one_shifted {amount : Nat} (low : amount < 64) :
    ((1 : UInt64) <<< amount.toUInt64).toNat = 2 ^ amount := by
  rw [UInt64.toNat_shiftLeft, word_nat _ (by omega), Nat.mod_eq_of_lt low, UInt64.toNat_one,
    Nat.one_shiftLeft, Nat.mod_eq_of_lt (Nat.pow_lt_pow_right (by decide) low)]

/-- Masking the lowest bits takes the remainder by their power of two. -/
theorem low_bits (value : UInt64) {bits : Nat} (low : bits < 64) :
    value &&& (2 ^ bits - 1).toUInt64 = (value.toNat % 2 ^ bits).toUInt64 := by
  have bounded : 2 ^ bits ≤ 2 ^ 64 := Nat.pow_le_pow_right (by decide) (Nat.le_of_lt low)
  have wrapped := Nat.mod_lt value.toNat (Nat.two_pow_pos bits)
  apply UInt64.toNat_inj.mp
  rw [UInt64.toNat_and, word_nat _ (by omega), Nat.and_two_pow_sub_one_eq_mod, word_nat _ (by omega)]

theorem wrap_ok (size : UInt8) (value : UInt64) :
    Checked.wrapAddress size value = .ok (wrapAddress size value) := by
  unfold Checked.wrapAddress wrapAddress
  by_cases short : size < 8
  · have narrow : size.toNat < 8 := UInt8.lt_iff_toNat_lt.mp short
    have low : size.toNat * 8 < 64 := by omega
    have bits : Checked.product Checked.halfLimit size.toNat 8 = .ok (size.toNat * 8) :=
      product_ok (by unfold Checked.halfLimit; omega)
    have positive : 1 ≤ 2 ^ (size.toNat * 8) := Nat.one_le_two_pow
    have count : addressCount size = 2 ^ (size.toNat * 8) := by
      change (2 ^ 8) ^ size.toNat = _
      rw [← Nat.pow_mul, Nat.mul_comm]
    rw [if_pos short, if_pos short, after_ok bits, after_ok (shift_left_ok 1 low), one_shifted low,
      after_ok (difference_ok positive), low_bits value low, count]
    rfl
  · rw [if_neg short, if_neg short]
    rfl

end Steps

/-! The parsers. -/
section Parsers

variable {size : Nat} (small : size < 2 ^ 28)

include small

theorem agrees_of_run {checked : CheckedM α} {read : ReadM α} (advances : read.Advances)
    (same : ∀ cursor : Cursor, cursor.Small → checked.run cursor = .ok (read.run cursor)) :
    Agrees size checked read := by
  intro cursor within
  refine ⟨same cursor ?_, advances_within advances within⟩
  unfold Cursor.Within at within
  unfold Cursor.Small Cursor.Addressable Checked.wordLimit Checked.bitLimit
  omega

theorem bytes_agree (count : Nat) : Agrees size (Checked.readBytes count) (readBytes count) :=
  agrees_of_run small (parsers_advance.bytes count) fun _ fits => checked_bytes_run fits.1 count

theorem byte_agrees : Agrees size Checked.readByte readByte :=
  agrees_of_run small parsers_advance.byte fun _ fits => checked_byte_run _ fits.1

theorem word_agrees (width : Nat) : Agrees size (Checked.readWord width) (readWord width) :=
  agrees_of_run small (parsers_advance.word width) fun _ fits => checked_word_run fits.1 width

theorem address_agrees (width : UInt8) :
    Agrees size (Checked.readAddress width) (readAddress width) := by
  unfold Checked.readAddress readAddress
  split
  · exact word_agrees small _
  · exact agrees_throw _

theorem unsigned_agrees : Agrees size Checked.readUnsigned readUnsigned :=
  agrees_of_run small parsers_advance.unsigned fun _ fits => checked_unsigned_run fits.1 (small_counted fits)

theorem signed_agrees : Agrees size Checked.readSigned readSigned :=
  agrees_of_run small parsers_advance.signed fun _ fits => checked_signed_run fits.1 (small_counted fits)

theorem text_agrees : Agrees size Checked.readText readText :=
  agrees_of_run small parsers_advance.text fun _ fits => checked_text_run fits.1

theorem align_agrees (width : UInt8) : Agrees size (Checked.alignTo width) (alignTo width) :=
  agrees_of_run small (parsers_advance.align width) fun _ fits => checked_align_run fits.1 width

theorem block_agrees : Agrees size Checked.readBlock readBlock :=
  agrees_bind (unsigned_agrees small) fun _ => bytes_agree small _

omit small in
/-- The offset that is computed back from the end of a block is the one at which it starts. -/
theorem block_behind {cursor after : Cursor} {block : List UInt8}
    (read : readBlock.run cursor = (.ok block, after)) : block.length ≤ after.offset := by
  rw [readBlock, ReadM.run_bind] at read
  rcases ran : readUnsigned.run cursor with ⟨fault | length, rest⟩ <;> rw [ran] at read
  · cases read
  · dsimp only at read
    rw [read_bytes_run] at read
    split at read
    · cases read
    · cases read
      simp only [Cursor.advance, List.length_take]
      omega

theorem in_block_agrees {checked : CheckedM α} {read : ReadM α} (nested : Agrees size checked read) :
    Agrees size (Checked.readInBlock checked) (readInBlock read) := by
  intro cursor within
  obtain ⟨same, stays⟩ := block_agrees small cursor within
  rw [Checked.readInBlock, readInBlock, ReadM.run_bind]
  rcases ran : readBlock.run cursor with ⟨fault | block, after⟩ <;> rw [ran] at same stays
  · exact ⟨CheckedM.run_bind_error same _, stays⟩
  · have behind := block_behind ran
    have windowed : Cursor.Within size ⟨block, after.offset - block.length, after.endian⟩ := by
      unfold Cursor.Within at stays ⊢
      dsimp only at stays ⊢
      omega
    obtain ⟨same', -⟩ := nested _ windowed
    rw [CheckedM.run_bind same, CheckedM.run_bind (CheckedM.run_get after),
      CheckedM.run_operation (difference_ok behind), CheckedM.run_operation same']
    dsimp only
    rw [ReadM.run_bind, ReadM.run_get]
    exact agrees_lift _ after stays

theorem format_agrees (width : UInt8) (format : PointerFormat) :
    Agrees size (Checked.readFormat width format) (readFormat width format) := by
  cases format with
  | address => exact address_agrees small width
  | uleb128 => exact unsigned_agrees small
  | udata2 => exact word_agrees small 2
  | udata4 => exact word_agrees small 4
  | udata8 | sdata8 => exact word_agrees small 8
  | sleb128 => exact agrees_bind (signed_agrees small) fun _ => agrees_pure _
  | sdata2 | sdata4 => exact agrees_bind (word_agrees small _) fun _ => agrees_pure _

theorem pointer_agrees (encoding : Encoding) (width : UInt8) (bases : PointerBases) :
    Agrees size (Checked.readPointer encoding width bases) (readPointer encoding width bases) := by
  unfold Checked.readPointer readPointer
  by_cases omitted : encoding = .omitted
  · rw [if_pos omitted, if_pos omitted]
    exact agrees_pure _
  rw [if_neg omitted, if_neg omitted]
  by_cases indirect : encoding.isIndirect
  · rw [if_pos indirect, if_pos indirect]
    exact agrees_throw _
  rw [if_neg indirect, if_neg indirect]
  apply agrees_bind (agrees_lift _)
  intro application
  have valued : Agrees size
      (do
        let cursor ← get
        let value ← Checked.readFormat width (← encoding.format)
        let base ← bases.base (bases.sectionAddress + cursor.offset.toUInt64) application
        return some (← Checked.wrapAddress width (base + value)) : CheckedM (Option UInt64))
      (do
        let cursor ← get
        let value ← readFormat width (← encoding.format)
        let base ← bases.base (bases.sectionAddress + cursor.offset.toUInt64) application
        return some (wrapAddress width (base + value)) : ReadM (Option UInt64)) := by
    apply agrees_bind agrees_get
    intro cursor
    apply agrees_bind (agrees_lift _)
    intro format
    apply agrees_bind (format_agrees small width format)
    intro value
    apply agrees_bind (agrees_lift _)
    intro base
    exact agrees_operation (wrap_ok width _) (agrees_pure _)
  by_cases aligned : application = .aligned
  · simp only [if_pos aligned]
    exact agrees_bind (align_agrees small width) fun _ => valued
  · simp only [if_neg aligned]
    exact valued

theorem required_agrees (absent : Fault) (encoding : Encoding) (width : UInt8) (bases : PointerBases) :
    Agrees size (Checked.readRequired absent encoding width bases)
      (readRequired absent encoding width bases) := by
  apply agrees_bind (pointer_agrees small encoding width bases)
  intro pointer
  cases pointer with
  | none => exact agrees_throw _
  | some value => exact agrees_pure _

theorem augmentation_agrees (width : UInt8) (bases : PointerBases) (letters : List Char)
    (aug : Augmentation) :
    Agrees size (Checked.readAugmentation width bases letters aug)
      (readAugmentation width bases letters aug) := by
  fun_induction readAugmentation width bases letters aug with
  | case1 letters aug ih =>
      rw [Checked.readAugmentation]
      exact agrees_bind (byte_agrees small) ih
  | case2 letters aug ih =>
      rw [Checked.readAugmentation]
      apply agrees_bind (byte_agrees small)
      intro encoding
      exact agrees_bind (pointer_agrees small _ width bases) fun _ => ih _ _
  | case3 letters aug ih =>
      rw [Checked.readAugmentation]
      exact agrees_bind (byte_agrees small) ih
  | case4 letters aug ih =>
      rw [Checked.readAugmentation]
      exact ih
  | case5 letters aug lsda personality fde signal =>
      unfold Checked.readAugmentation
      split
      · exact (lsda _ rfl).elim
      · exact (personality _ rfl).elim
      · exact (fde _ rfl).elim
      · exact (signal _ rfl).elim
      · exact agrees_pure _

theorem oldest_agrees (text : String) (layout : Layout) :
    Agrees size (Checked.skipOldest text layout) (skipOldest text layout) := by
  unfold Checked.skipOldest skipOldest
  split
  · exact agrees_map _ (bytes_agree small _)
  · exact agrees_pure _

theorem target_agrees : Agrees size Checked.readTarget readTarget := by
  apply agrees_bind (byte_agrees small)
  intro width
  split
  · exact agrees_throw _
  apply agrees_bind (byte_agrees small)
  intro selector
  split
  · exact agrees_throw _
  · exact agrees_pure _

theorem address_size_agrees (version : UInt8) (layout : Layout) :
    Agrees size (Checked.readAddressSize version layout) (readAddressSize version layout) := by
  unfold Checked.readAddressSize readAddressSize
  split
  · exact target_agrees small
  · exact agrees_pure _

theorem factors_agree : Agrees size Checked.readFactors readFactors := by
  apply agrees_bind (unsigned_agrees small)
  intro code
  split
  · exact agrees_throw _
  apply agrees_bind (signed_agrees small)
  intro data
  split
  · exact agrees_throw _
  · exact agrees_pure _

theorem return_column_agrees (version : UInt8) :
    Agrees size (Checked.readReturnColumn version) (readReturnColumn version) := by
  unfold Checked.readReturnColumn readReturnColumn
  split
  · exact agrees_map _ (byte_agrees small)
  · exact unsigned_agrees small

theorem augmentation_part_agrees (text : String) (width : UInt8) (bases : PointerBases) :
    Agrees size (Checked.readAugmentationPart text width bases)
      (readAugmentationPart text width bases) := by
  unfold readAugmentationPart
  split
  next letters spelled =>
    rw [Checked.readAugmentationPart, spelled]
    exact agrees_map _ (in_block_agrees small (augmentation_agrees small width bases _ _))
  next spelled =>
    rw [Checked.readAugmentationPart, spelled]
    exact agrees_pure _
  next letters spelled =>
    rw [Checked.readAugmentationPart, spelled]
    exact agrees_pure _
  next sized none old =>
    unfold Checked.readAugmentationPart
    split
    next letters spelled => exact (sized letters spelled).elim
    next spelled => exact (none spelled).elim
    next letters spelled => exact (old letters spelled).elim
    next => exact agrees_throw _

theorem cie_agrees (offset : Nat) (area : Section) (layout : Layout) :
    Agrees size (Checked.readCie offset area layout) (readCie offset area layout) := by
  apply agrees_bind (byte_agrees small)
  intro version
  split
  · exact agrees_throw _
  apply agrees_bind (text_agrees small)
  intro text
  apply agrees_bind (oldest_agrees small text layout)
  intro _
  apply agrees_bind (address_size_agrees small version layout)
  intro width
  apply agrees_bind (factors_agree small)
  intro factors
  apply agrees_bind (return_column_agrees small version)
  intro column
  apply agrees_bind (augmentation_part_agrees small text width _)
  intro augmentation
  exact agrees_bind agrees_get fun _ => agrees_pure _

theorem lsda_agrees (width : UInt8) (bases : PointerBases) (aug : Option Augmentation) :
    Agrees size (Checked.readLsda width bases aug) (readLsda width bases aug) := by
  cases aug with
  | none => exact agrees_pure _
  | some aug =>
      apply in_block_agrees small
      cases aug.lsdaEncoding with
      | none => exact agrees_pure _
      | some encoding => exact pointer_agrees small encoding.direct width bases

theorem fde_agrees (offset : Nat) (cie : Cie) (bases : PointerBases) :
    Agrees size (Checked.readFde offset cie bases) (readFde offset cie bases) := by
  apply agrees_bind (required_agrees small _ _ _ _)
  intro start
  apply agrees_bind (required_agrees small _ _ _ _)
  intro length
  apply agrees_bind (lsda_agrees small _ _ _)
  intro lsda
  exact agrees_bind agrees_get fun _ => agrees_pure _

theorem length_agrees : Agrees size Checked.readLength readLength := by
  apply agrees_bind (word_agrees small 4)
  intro short
  split
  · exact agrees_bind (word_agrees small 8) fun _ => agrees_pure _
  · exact agrees_pure _

theorem entry_agrees (kind : SectionKind) (offset : Nat) (wide : Bool) (length : UInt64) :
    Agrees size (Checked.readEntry kind offset wide length) (readEntry kind offset wide length) := by
  intro cursor within
  rw [Checked.readEntry, readEntry, CheckedM.run_bind (CheckedM.run_get cursor), ReadM.run_bind,
    ReadM.run_get]
  by_cases short : cursor.data.length < length.toNat
  · simp only [if_pos short]
    exact agrees_throw _ cursor within
  · obtain ⟨bytes, stays⟩ := bytes_agree small length.toNat cursor within
    rw [read_bytes_run, if_neg short] at bytes stays
    -- the entry is a region of its own
    have windowed : Cursor.Within size { cursor with data := cursor.data.take length.toNat } := by
      unfold Cursor.Within at within ⊢
      simp only [List.length_take]
      omega
    obtain ⟨word, -⟩ := word_agrees small (idWidth kind wide) _ windowed
    simp only [if_neg short]
    rw [CheckedM.run_bind bytes, ReadM.run_bind, read_bytes_run, if_neg short,
      CheckedM.run_bind (CheckedM.run_get _), CheckedM.run_operation word]
    dsimp only
    exact agrees_bind (agrees_lift _) (fun _ => agrees_pure _) _ stays

theorem header_agrees (kind : SectionKind) :
    Agrees size (Checked.readHeader kind) (readHeader kind) := by
  apply agrees_bind agrees_get
  intro start
  split
  · exact agrees_pure _
  apply agrees_bind (length_agrees small)
  intro ⟨wide, length⟩
  dsimp only
  split
  · exact agrees_pure _
  · exact agrees_map _ (entry_agrees small kind _ wide length)

theorem expression_agrees : Agrees size Checked.readExpression readExpression :=
  agrees_map Expression.mk (block_agrees small)

theorem extended_agrees (format : OperandFormat) (start : Nat) (opcode : UInt8) :
    Agrees size (Checked.readExtended format start opcode) (readExtended format start opcode) := by
  have unsigned : Agrees size Checked.readUnsigned readUnsigned := unsigned_agrees small
  have signed : Agrees size Checked.readSigned readSigned := signed_agrees small
  have expression : Agrees size Checked.readExpression readExpression := expression_agrees small
  unfold readExtended
  split <;> rw [Checked.readExtended]
  -- the opcodes by their operands
  case h_1 | h_11 | h_12 | h_25 => exact agrees_pure _
  case h_2 => exact agrees_map _ (required_agrees small _ _ _ _)
  case h_3 => exact agrees_bind (byte_agrees small) fun _ => agrees_pure _
  case h_4 | h_5 | h_24 => exact agrees_bind (word_agrees small _) fun _ => agrees_pure _
  case h_7 | h_8 | h_9 | h_14 | h_15 => exact agrees_bind unsigned fun _ => agrees_pure _
  case h_20 => exact agrees_bind signed fun _ => agrees_pure _
  case h_16 => exact agrees_bind expression fun _ => agrees_pure _
  case h_6 | h_10 | h_13 | h_21 | h_27 =>
    exact agrees_bind unsigned fun _ => agrees_bind unsigned fun _ => agrees_pure _
  case h_18 | h_19 | h_22 =>
    exact agrees_bind unsigned fun _ => agrees_bind signed fun _ => agrees_pure _
  case h_17 | h_23 =>
    exact agrees_bind unsigned fun _ => agrees_bind expression fun _ => agrees_pure _
  case h_26 => exact agrees_bind (agrees_map _ unsigned) fun _ => agrees_pure _
  case h_28 => exact agrees_throw _
  all_goals assumption

theorem instruction_agrees (format : OperandFormat) :
    Agrees size (Checked.readInstruction format) (readInstruction format) := by
  apply agrees_bind agrees_get
  intro cursor
  apply agrees_bind (byte_agrees small)
  intro b
  dsimp only
  generalize b >>> 6 = top
  split
  · exact agrees_pure _
  · exact agrees_bind (unsigned_agrees small) fun _ => agrees_pure _
  · exact agrees_pure _
  next advance offset restore =>
    simpa only [advance, offset, restore] using extended_agrees small format cursor.offset b

theorem decode_from_checked (format : OperandFormat) (fuel : Nat) (cursor : Cursor)
    (within : cursor.Within size) :
    Checked.decodeFrom format fuel cursor = .ok (decodeFrom format fuel cursor) := by
  induction fuel generalizing cursor with
  | zero => rfl
  | succ fuel ih =>
      obtain ⟨same, stays⟩ := instruction_agrees small format cursor within
      rw [Checked.decodeFrom, decodeFrom]
      by_cases empty : cursor.data.isEmpty
      · rw [if_pos empty, if_pos empty]
        rfl
      · rw [if_neg empty, if_neg empty, same]
        rcases ran : (readInstruction format).run cursor with ⟨fault | instruction, rest⟩
        · rfl
        · rw [ran] at stays
          change (Checked.decodeFrom format fuel rest >>= fun further =>
            pure (.ok instruction :: further)) = _
          rw [ih rest stays]
          rfl

/-- A program that is a part of the section is decoded. -/
theorem decode_checked (format : OperandFormat) {cursor : Cursor} (within : cursor.Within size) :
    Checked.decodeProgram format cursor = .ok (decodeProgram format cursor) :=
  decode_from_checked small format _ cursor within

end Parsers

end CallFrame
