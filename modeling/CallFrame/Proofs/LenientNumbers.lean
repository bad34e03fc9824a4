import CallFrame.Proofs.GroupNumbers

/-!
The lenient decoder of LEB128 numbers beside the strict ones. It has no opinion on groups beyond the word,
so it reads every number of which the last group is there, and yields what the word holds of it. A strict
decoder that does not refuse the number yields the same, from the same bytes. Where the bytes run out inside
a number, neither has anything to yield.
-/

namespace CallFrame

namespace Leb128

variable {groups : List UInt8}

/-! What the lenient decoder reads. -/
section Lenient

def lenientResult (signed : Bool) (shift : Nat) (acc : UInt64) (bytes : List UInt8) :
    Except Defect UInt64 × List UInt8 :=
  match lenientFrom signed shift acc bytes with
  | none => (.error .truncated, [])
  | some (word, rest) => (.ok word, rest)

theorem lenient_cons (signed : Bool) (shift : Nat) (acc : UInt64) (b : UInt8) (rest : List UInt8) :
    lenientResult signed shift acc (b :: rest) =
      if continues b then lenientResult signed (shift + 7) (gather acc shift b) rest
      else (.ok (if signed then extend (gather acc shift b) (shift + 7) b else gather acc shift b), rest) := by
  rw [lenientResult, lenientFrom, gather]
  cases continues b <;> rfl

theorem lenient_suffix (signed : Bool) (shift : Nat) (acc : UInt64) (bytes : List UInt8) :
    (lenientResult signed shift acc bytes).2 <:+ bytes := by
  induction bytes generalizing shift acc with
  | nil => exact List.suffix_rfl
  | cons b rest ih =>
      rw [lenient_cons]
      split
      · exact (ih _ _).trans (List.suffix_cons b rest)
      · exact List.suffix_cons b rest

/-- It reads group by group like the strict ones, and takes every group beyond the word for empty. -/
theorem lenient_decodes (signed : Bool) :
    Decodes (fun _ => true) (fun acc shift b => if signed then extend acc shift b else acc)
      (lenientResult signed) where
  nothing _ _ := rfl
  group shift acc b rest := by
    rw [lenient_cons, gather]
    by_cases inWord : shift < 64 <;> simp [inWord]
  suffix := lenient_suffix signed

theorem lenient_of_result {signed : Bool} {bytes rest : List UInt8} {word : UInt64}
    (yields : lenientResult signed 0 0 bytes = (.ok word, rest)) :
    lenient signed bytes = some (word, rest) := by
  unfold lenientResult at yields
  unfold lenient
  split at yields
  · cases yields
  next found =>
    cases yields
    exact found

theorem lenient_unsigned (whole : Whole groups) (rest : List UInt8) :
    lenient false (groups ++ rest) = some ((number groups).toUInt64, rest) := by
  obtain ⟨word, last, -, yields, wraps, -⟩ := number_read (lenient_decodes false) whole rest fun _ _ => rfl
  rw [← wraps_to_uint64 wraps]
  exact lenient_of_result yields

theorem lenient_signed (whole : Whole groups) (rest : List UInt8) :
    lenient true (groups ++ rest) = some ((Int64.ofInt (signedNumber groups)).toUInt64, rest) := by
  obtain ⟨word, last, found, yields, wraps, bound⟩ :=
    number_read (lenient_decodes true) whole rest fun _ _ => rfl
  rw [← wraps_to_int64 (sign_extended found bound wraps)]
  exact lenient_of_result yields

theorem lenient_endless (signed : Bool) {bytes : List UInt8} (endless : ∀ b ∈ bytes, continues b = true) :
    lenient signed bytes = none := by
  obtain ⟨defect, left, yields⟩ := endless_refused (lenient_decodes signed) bytes endless 0 0
  unfold lenientResult at yields
  split at yields
  next nothing => exact nothing
  · cases yields

/-- Bytes begin with the groups of a number, unless each of them announces another one. -/
theorem groups_or_endless (bytes : List UInt8) :
    (∃ groups rest, Whole groups ∧ bytes = groups ++ rest) ∨ ∀ b ∈ bytes, continues b = true := by
  induction bytes with
  | nil => exact .inr fun b member => nomatch member
  | cons b bytes ih =>
      cases goes : continues b with
      | false => exact .inl ⟨[b], bytes, .last b goes, rfl⟩
      | true =>
          rcases ih with ⟨groups, rest, whole, rfl⟩ | endless
          · exact .inl ⟨b :: groups, rest, .more b groups goes whole, rfl⟩
          · exact .inr (List.forall_mem_cons.mpr ⟨goes, endless⟩)

end Lenient

end Leb128

open Leb128

/-! The same bytes, read strictly and leniently. -/
section Alike

/-- What the strict step reads at the cursor is what the lenient decoder reads there: the same word, from as
many bytes. The lenient decoder fails only where the step fails, too, and where it does not fail, the step
has refused the number if it fails. -/
structure DecodedAlike (strict : ReadM α) (word : α → UInt64) (signed : Bool) (tooLarge : Fault)
    (cursor : Cursor) : Prop where
  reads : ∀ value after, strict.run cursor = (.ok value, after) →
    ∃ count ≤ cursor.data.length, after = cursor.advance count ∧
      lenient signed cursor.data = some (word value, cursor.data.drop count)
  fails : lenient signed cursor.data = none → ∃ fault, strict.value cursor = .error fault
  refuses : ∀ fault, strict.value cursor = .error fault → lenient signed cursor.data ≠ none → fault = tooLarge

variable {decoder : List UInt8 → Except Defect α × List UInt8} {word : α → UInt64} {signed : Bool}
  {cursor : Cursor} {groups rest : List UInt8} {value : α} (tooLarge : Fault)

theorem accepted_alike (split : cursor.data = groups ++ rest)
    (strict : decoder (groups ++ rest) = (.ok value, rest))
    (lenient : lenient signed (groups ++ rest) = some (word value, rest)) :
    DecodedAlike (readLeb decoder tooLarge) word signed tooLarge cursor := by
  have ran := read_leb_groups tooLarge split strict
  refine ⟨?_, ?_, ?_⟩
  · intro answer after answered
    rw [ran] at answered
    cases answered
    refine ⟨groups.length, ?_, rfl, ?_⟩
    · rw [split, List.length_append]
      exact Nat.le_add_right _ _
    · rw [split, List.drop_left]
      exact lenient
  · intro failed
    rw [split, lenient] at failed
    cases failed
  · intro fault failed
    rw [ReadM.value, ran] at failed
    cases failed

theorem refused_alike {left : List UInt8} (strict : decoder cursor.data = (.error .tooLarge, left)) :
    DecodedAlike (readLeb decoder tooLarge) word signed tooLarge cursor := by
  obtain ⟨after, ran⟩ := read_leb_error tooLarge strict
  have failed : (readLeb decoder tooLarge).value cursor = .error tooLarge := congrArg Prod.fst ran
  refine ⟨?_, fun _ => ⟨tooLarge, failed⟩, ?_⟩
  · intro answer after answered
    rw [ran] at answered
    cases answered
  · intro fault failed' _
    rw [failed] at failed'
    exact (Except.error.inj failed').symm

theorem endless_alike {defect : Defect} {left : List UInt8} (endless : ∀ b ∈ cursor.data, continues b = true)
    (strict : decoder cursor.data = (.error defect, left)) :
    DecodedAlike (readLeb decoder tooLarge) word signed tooLarge cursor := by
  obtain ⟨after, ran⟩ := read_leb_error tooLarge strict
  refine ⟨?_, fun _ => ⟨_, congrArg Prod.fst ran⟩, ?_⟩
  · intro answer after answered
    rw [ran] at answered
    cases answered
  · intro _ _ reads
    exact absurd (lenient_endless signed endless) reads

/-- Numbers are read alike by the strict steps and by the lenient decoder, unsigned ones and signed ones: where
a strict step succeeds both take the same bytes for the same word, and where the lenient decoder fails so does
the step. What the lenient decoder reads and a step does not is a number that the step finds too large. -/
theorem strict_and_lenient_agree (cursor : Cursor) :
    DecodedAlike readUnsigned id false .unsignedTooLarge cursor ∧
      DecodedAlike readSigned Int64.toUInt64 true .signedTooLarge cursor := by
  rcases groups_or_endless cursor.data with ⟨groups, rest, whole, split⟩ | endless
  · constructor
    · by_cases bound : number groups < 2 ^ 70
      · exact accepted_alike _ split (unsigned_read whole rest bound) (lenient_unsigned whole rest)
      · obtain ⟨left, refused⟩ := unsigned_refused whole rest (Nat.le_of_not_lt bound)
        exact refused_alike _ (split ▸ refused)
    · by_cases padded : Padded groups
      · exact accepted_alike _ split (signed_read whole rest padded) (lenient_signed whole rest)
      · obtain ⟨left, refused⟩ := signed_refused whole rest padded
        exact refused_alike _ (split ▸ refused)
  · obtain ⟨defect, left, unsigned⟩ := endless_refused unsigned_decodes cursor.data endless 0 0
    obtain ⟨defect', left', signed⟩ := endless_refused signed_decodes cursor.data endless 0 0
    exact ⟨endless_alike _ endless unsigned, endless_alike _ endless signed⟩

-- The number -128 in twelve groups, two of them beyond the word, and bytes that end inside a number.
theorem strict_and_lenient_agree_redundant :
    let whole : Cursor := ⟨[0x80] ++ List.replicate 10 0xff ++ [0x7f, 0x00], 0, .little⟩
    let cut : Cursor := ⟨[0xe5, 0x8e], 0, .little⟩
    readSigned.run whole = (.ok (-128), ⟨[0x00], 12, .little⟩) ∧
      lenient true whole.data = some ((-128 : Int64).toUInt64, [0x00]) ∧
      lenient false cut.data = none ∧ ∃ fault, readUnsigned.value cut = .error fault := by
  intro whole cut
  have read : readSigned.run whole = (.ok (-128), ⟨[0x00], 12, .little⟩) := rfl
  have nothing : lenient false cut.data = none := rfl
  obtain ⟨count, -, left, same⟩ := (strict_and_lenient_agree whole).2.reads _ _ read
  have taken : 12 = 0 + count := congrArg Cursor.offset left
  rw [← show 12 = count by omega] at same
  exact ⟨read, same, nothing, (strict_and_lenient_agree cut).1.fails nothing⟩

end Alike

end CallFrame
