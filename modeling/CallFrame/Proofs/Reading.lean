import CallFrame.Cursor
import Mathlib.Algebra.Ring.Nat

/-!
What reading steps do to a cursor. A step is opened by running it: each lemma gives the answer and
the cursor that is left, so that nothing above the steps has to unfold the monad.
-/

namespace CallFrame

def Cursor.advance (cursor : Cursor) (count : Nat) : Cursor :=
  { cursor with data := cursor.data.drop count, offset := cursor.offset + count }

theorem advance_append (bytes rest : List UInt8) (offset : Nat) (endian : Endian) :
    (Cursor.mk (bytes ++ rest) offset endian).advance bytes.length = ⟨rest, offset + bytes.length, endian⟩ := by
  rw [Cursor.advance, List.drop_left]

-- What succeeds has succeeded in every part.
theorem bind_ok {operand : Except ε α} {follow : α → Except ε β} {answer : β}
    (whole : operand >>= follow = .ok answer) :
    ∃ value, operand = .ok value ∧ follow value = .ok answer := by
  cases operand with
  | error fault => cases whole
  | ok value => exact ⟨value, rfl, whole⟩

namespace ReadM

theorem run_bind (read : ReadM α) (follow : α → ReadM β) (cursor : Cursor) :
    (read >>= follow).run cursor =
      match read.run cursor with
      | (.ok value, rest) => (follow value).run rest
      | (.error fault, rest) => (.error fault, rest) := by
  change (match read.run cursor with
    | (result, rest) => (ExceptT.bindCont follow result).run rest) = _
  rcases read.run cursor with ⟨result, rest⟩
  cases result <;> rfl

theorem run_bind_ok {read : ReadM α} {follow : α → ReadM β} {cursor rest : Cursor} {answer : β}
    (ran : (read >>= follow).run cursor = (.ok answer, rest)) :
    ∃ value middle, read.run cursor = (.ok value, middle) ∧ (follow value).run middle = (.ok answer, rest) := by
  rw [run_bind] at ran
  rcases first : read.run cursor with ⟨fault | value, middle⟩ <;> rw [first] at ran
  · cases ran
  · exact ⟨value, middle, rfl, ran⟩

theorem run_get (cursor : Cursor) :
    (get : ReadM Cursor).run cursor = (.ok cursor, cursor) := rfl

theorem lift_ok (value : α) :
    (liftM (Except.ok value : Except Fault α) : ReadM α) = pure value := rfl

theorem lift_run_ok {result : Except Fault α} {value : α} {cursor rest : Cursor}
    (ran : (liftM result : ReadM α).run cursor = (.ok value, rest)) : rest = cursor ∧ result = .ok value := by
  cases result with
  | error fault => cases ran
  | ok value =>
      cases ran
      exact ⟨rfl, rfl⟩

theorem run_map_fst (change : α → β) (read : ReadM α) (cursor : Cursor) :
    ((change <$> read).run cursor).1 = (read.run cursor).1.map change := by
  rw [map_eq_pure_bind, run_bind]
  rcases read.run cursor with ⟨result, rest⟩
  cases result <;> rfl

def Yields (read : ReadM α) (holds : α → Prop) : Prop :=
  ∀ cursor value, read.value cursor = .ok value → holds value

variable {holds : β → Prop}

theorem yields_pure (answer : β) (sound : holds answer) : Yields (pure answer) holds := by
  rintro cursor _ ⟨⟩
  exact sound

theorem yields_throw (fault : Fault) : Yields (throw fault : ReadM β) holds := by
  rintro cursor _ ⟨⟩

theorem yields_ite (p : Prop) [Decidable p] (yes no : ReadM β) (first : Yields yes holds)
    (second : Yields no holds) : Yields (if p then yes else no) holds := by
  split
  · exact first
  · exact second

theorem yields_bind (read : ReadM α) (follow : α → ReadM β)
    (each : ∀ value, Yields (follow value) holds) : Yields (read >>= follow) holds := by
  intro cursor answer found
  rw [ReadM.value, run_bind] at found
  rcases step : read.run cursor with ⟨result, rest⟩
  rw [step] at found
  cases result with
  | error fault => cases found
  | ok value => exact each value rest answer found

end ReadM

theorem read_bytes_run (count : Nat) (cursor : Cursor) :
    (readBytes count).run cursor =
      if cursor.data.length < count then (.error (.readPastEnd count cursor.data.length), cursor)
      else (.ok (cursor.data.take count), cursor.advance count) := by
  rw [readBytes, ReadM.run_bind, ReadM.run_get]
  dsimp only
  split <;> rfl

theorem read_word_run (width : Nat) (cursor : Cursor) :
    (readWord width).run cursor =
      if cursor.data.length < width then (.error (.readPastEnd width cursor.data.length), cursor)
      else (.ok (cursor.endian.value (cursor.data.take width)).toUInt64, cursor.advance width) := by
  rw [readWord, ReadM.run_bind, ReadM.run_get]
  dsimp only
  rw [ReadM.run_bind, read_bytes_run]
  by_cases short : cursor.data.length < width <;> simp only [short, ↓reduceIte]
  rfl

theorem little_value_lt (bytes : List UInt8) : littleValue bytes < 256 ^ bytes.length := by
  induction bytes with
  | nil => simp [littleValue]
  | cons byte rest ih =>
      have bound := byte.toNat_lt
      simp only [littleValue, List.length_cons, Nat.pow_succ]
      omega

theorem value_lt (endian : Endian) (bytes : List UInt8) :
    endian.value bytes < 256 ^ bytes.length := by
  cases endian with
  | little => exact little_value_lt bytes
  | big => simpa [Endian.value] using little_value_lt bytes.reverse

theorem word_nat (n : Nat) (short : n < 2 ^ 64) : n.toUInt64.toNat = n := by
  rw [Nat.toUInt64, UInt64.toNat_ofNat', Nat.mod_eq_of_lt short]

theorem word_eq {n : Nat} {word : UInt64} (short : n < 2 ^ 64) (same : n.toUInt64 = word) :
    n = word.toNat := by
  rw [← same, word_nat n short]

-- A word holds eight bytes, so what is read into one is never cut.
theorem value_to_word (endian : Endian) (bytes : List UInt8) (short : bytes.length ≤ 8) :
    (endian.value bytes).toUInt64.toNat = endian.value bytes := by
  have bound := value_lt endian bytes
  have limit : 256 ^ bytes.length ≤ 256 ^ 8 := Nat.pow_le_pow_right (by decide) short
  exact word_nat _ (Nat.lt_of_lt_of_le bound limit)

end CallFrame
