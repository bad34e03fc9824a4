import CallFrame.CfiEntry
import CallFrame.Proofs.Parsing

/-!
Reading does not look ahead. What a step that reads instructions answers, and how far it moves, is decided
by the bytes that it takes; only a step for which the bytes do not suffice can answer something else if
there are more. So a program that begins with an instruction is decoded as that instruction and then the
rest, whatever the rest is.
-/

namespace CallFrame

/-- The bytes have ended inside what was to be read. -/
def Fault.isTruncation : Fault → Bool
  | .readPastEnd .. => true
  | _ => false

def RanOut : Except Fault α → Bool
  | .error fault => fault.isTruncation
  | .ok _ => false

/-! Steps that do not look ahead. -/
section Local

/-- The step takes the first bytes of the cursor and leaves the rest. Unless it has run out of bytes, it
takes these and answers the same whatever stands behind them. -/
structure ReadM.Takes (read : ReadM α) (cursor : Cursor) (taken rest : List UInt8) : Prop where
  data : cursor.data = taken ++ rest
  left : (read.run cursor).2 = { cursor with data := rest, offset := cursor.offset + taken.length }
  decided : RanOut (read.run cursor).1 = false → ∀ other,
    read.run { cursor with data := taken ++ other } =
      ((read.run cursor).1, { cursor with data := other, offset := cursor.offset + taken.length })

def ReadM.Local (read : ReadM α) : Prop :=
  ∀ cursor, ∃ taken rest, read.Takes cursor taken rest

theorem local_pure (value : α) : (pure value : ReadM α).Local :=
  fun cursor => ⟨[], cursor.data, rfl, rfl, fun _ _ => rfl⟩

theorem local_throw (fault : Fault) : (throw fault : ReadM α).Local :=
  fun cursor => ⟨[], cursor.data, rfl, rfl, fun _ _ => rfl⟩

theorem local_look {follow : Cursor → ReadM β}
    (blind : ∀ cursor data, follow { cursor with data } = follow cursor)
    (each : ∀ cursor, (follow cursor).Local) : (get >>= follow).Local := by
  intro cursor
  have run (cursor : Cursor) : (get >>= follow).run cursor = (follow cursor).run cursor := by
    rw [ReadM.run_bind, ReadM.run_get]
  obtain ⟨taken, rest, takes⟩ := each cursor cursor
  refine ⟨taken, rest, takes.data, ?_, ?_⟩
  · rw [run]
    exact takes.left
  · intro enough other
    rw [run] at enough ⊢
    rw [run, blind]
    exact takes.decided enough other

theorem local_bind {read : ReadM α} {follow : α → ReadM β} (first : read.Local)
    (second : ∀ value, (follow value).Local) : (read >>= follow).Local := by
  intro cursor
  obtain ⟨taken, rest, takes⟩ := first cursor
  have left := takes.left
  have decided := takes.decided
  rcases ran : read.run cursor with ⟨fault | value, after⟩ <;> rw [ran] at left decided <;>
    dsimp only at left <;> subst left
  · have whole : (read >>= follow).run cursor =
        (.error fault, { cursor with data := rest, offset := cursor.offset + taken.length }) := by
      rw [ReadM.run_bind, ran]
    refine ⟨taken, rest, takes.data, by rw [whole], fun enough other => ?_⟩
    rw [whole] at enough ⊢
    rw [ReadM.run_bind, decided enough]
  · let behind : Cursor := { cursor with data := rest, offset := cursor.offset + taken.length }
    obtain ⟨taken', rest', takes'⟩ := second value behind
    have whole : (read >>= follow).run cursor = (follow value).run behind := by
      rw [ReadM.run_bind, ran]
    have offsets : behind.offset + taken'.length = cursor.offset + (taken ++ taken').length := by
      rw [List.length_append, ← Nat.add_assoc]
    refine ⟨taken ++ taken', rest', ?_, ?_, fun enough other => ?_⟩
    · rw [takes.data, List.append_assoc, ← takes'.data]
    · rw [whole, takes'.left, offsets]
    · rw [whole] at enough ⊢
      rw [ReadM.run_bind, List.append_assoc, decided rfl, ← offsets]
      exact takes'.decided enough other

theorem bytes_local (count : Nat) : (readBytes count).Local := by
  intro cursor
  by_cases short : cursor.data.length < count
  · refine ⟨[], cursor.data, rfl, ?_, ?_⟩
    · rw [read_bytes_run, if_pos short]
      rfl
    · intro enough
      rw [read_bytes_run, if_pos short] at enough
      cases enough
  · have length : (cursor.data.take count).length = count := by
      rw [List.length_take]
      omega
    refine ⟨cursor.data.take count, cursor.data.drop count, (List.take_append_drop _ _).symm, ?_, ?_⟩
    · rw [read_bytes_run, if_neg short, length]
      rfl
    · intro _ other
      have long : ¬ (cursor.data.take count ++ other).length < count := by
        rw [List.length_append, length]
        omega
      rw [read_bytes_run, if_neg long, read_bytes_run, if_neg short, length]
      simp only [Cursor.advance, List.take_left' length, List.drop_left' length]

theorem byte_local : readByte.Local := by
  rintro ⟨_ | ⟨b, rest⟩, offset, endian⟩
  · refine ⟨[], [], rfl, rfl, ?_⟩
    rintro ⟨⟩
  · exact ⟨[b], rest, rfl, rfl, fun _ _ => rfl⟩

/-- On these bytes the decoder takes groups up to the one that decides, and does not look behind it. -/
def Leb128.DecidesOn (decoder : List UInt8 → Except Leb128.Defect α × List UInt8) (bytes : List UInt8) :
    Prop :=
  ∃ taken, bytes = taken ++ (decoder bytes).2 ∧
    ((decoder bytes).1 ≠ .error .truncated → ∀ other, decoder (taken ++ other) = ((decoder bytes).1, other))

section Groups

variable {decoder : List UInt8 → Except Leb128.Defect α × List UInt8} {b : UInt8} {rest : List UInt8}

theorem decides_ends (answer : Except Leb128.Defect α) (ends : ∀ rest, decoder (b :: rest) = (answer, rest)) :
    Leb128.DecidesOn decoder (b :: rest) := by
  refine ⟨[b], ?_, fun _ other => ?_⟩
  · rw [ends]
    rfl
  · rw [ends, List.singleton_append, ends]

theorem decides_goes {next : List UInt8 → Except Leb128.Defect α × List UInt8}
    (goes : ∀ rest, decoder (b :: rest) = next rest) (decides : Leb128.DecidesOn next rest) :
    Leb128.DecidesOn decoder (b :: rest) := by
  obtain ⟨taken, split, decided⟩ := decides
  refine ⟨b :: taken, ?_, fun enough other => ?_⟩
  · rw [goes, List.cons_append, ← split]
  · rw [goes] at enough ⊢
    rw [List.cons_append, goes]
    exact decided enough other

theorem decides_nothing (missing : (decoder []).1 = .error .truncated) (left : (decoder []).2 = []) :
    Leb128.DecidesOn decoder [] :=
  ⟨[], by rw [left]; rfl, fun enough => absurd missing enough⟩

end Groups

theorem groups_decide {empty : UInt64 → Bool} {done : UInt64 → Nat → UInt8 → α}
    {decoder : Nat → UInt64 → List UInt8 → Except Leb128.Defect α × List UInt8}
    (decodes : Leb128.Decodes empty done decoder) (shift : Nat) (acc : UInt64) (bytes : List UInt8) :
    Leb128.DecidesOn (decoder shift acc) bytes := by
  induction bytes generalizing shift acc with
  | nil => exact decides_nothing (by rw [decodes.nothing]) (by rw [decodes.nothing])
  | cons b rest ih =>
      by_cases read : 64 ≤ shift → empty (Leb128.payload b) = true
      · by_cases more : Leb128.continues b
        · exact decides_goes (fun rest => by rw [decodes.reads b rest read, if_pos more]) (ih (shift + 7) _)
        · exact decides_ends _ fun rest => by rw [decodes.reads b rest read, if_neg more]
      · exact decides_ends _ fun rest => decodes.refuses b rest read

theorem leb_local {decoder : List UInt8 → Except Leb128.Defect α × List UInt8} {tooLarge : Fault}
    (decides : ∀ bytes, Leb128.DecidesOn decoder bytes) : (readLeb decoder tooLarge).Local := by
  intro cursor
  obtain ⟨taken, split, decided⟩ := decides cursor.data
  have length : cursor.data.length - (decoder cursor.data).2.length = taken.length := by
    have whole := congrArg List.length split
    rw [List.length_append] at whole
    omega
  refine ⟨taken, (decoder cursor.data).2, split, ?_, fun enough other => ?_⟩
  · rw [read_leb_run, length]
  · have whole : (decoder cursor.data).1 ≠ .error .truncated := by
      intro cut
      rw [read_leb_run, cut] at enough
      cases enough
    rw [read_leb_run, read_leb_run, decided whole other]
    simp only [List.length_append, Nat.add_sub_cancel]

theorem scans_local : ReadM.Scans fun _ read => read.Local where
  pure := local_pure
  throw := local_throw
  look := local_look
  bind := local_bind
  bytes := bytes_local
  byte := byte_local
  unsigned := leb_local (groups_decide unsigned_decodes 0 0)
  signed := leb_local (groups_decide signed_decodes 0 0)

end Local

/-! The first instruction of a program. -/
section First

variable (format : OperandFormat)

/-- The bytes of the first instruction at the cursor. One that the program ends in has all of them. -/
def firstInstruction (cursor : Cursor) : List UInt8 :=
  let (answer, rest) := (readInstruction format).run cursor
  if RanOut answer then cursor.data else cursor.data.take (cursor.data.length - rest.data.length)

theorem decode_run (cursor : Cursor) (some : cursor.data ≠ []) :
    decodeProgram format cursor =
      match (readInstruction format).run cursor with
      | (.ok instruction, rest) => .ok instruction :: decodeProgram format rest
      | (.error fault, _) => [.error fault] := by
  have nonempty : cursor.data.isEmpty = false := List.isEmpty_eq_false_iff.mpr some
  obtain ⟨fuel, length⟩ : ∃ fuel, cursor.data.length = fuel + 1 :=
    ⟨cursor.data.length - 1, by have := List.length_pos_iff.mpr some; omega⟩
  have shorter := instruction_moves format cursor some
  rw [decodeProgram, length, decodeFrom, nonempty]
  rcases ran : (readInstruction format).run cursor with ⟨fault | instruction, rest⟩
  · simp
  · rw [ran, length] at shorter
    simpa using decode_from_enough format fuel rest (Nat.le_of_lt_succ shorter)

/-- What is first in a program, and where it ends, is the same whatever follows. -/
theorem first_decides (cursor : Cursor) (some : cursor.data ≠ []) :
    ∃ taken rest, taken ≠ [] ∧ cursor.data = taken ++ rest ∧
      ((readInstruction format).run cursor).2 =
        { cursor with data := rest, offset := cursor.offset + taken.length } ∧
      (RanOut ((readInstruction format).run cursor).1 = false →
        firstInstruction format cursor = taken ∧ ∀ other,
          (readInstruction format).run { cursor with data := taken ++ other } =
            (((readInstruction format).run cursor).1,
              { cursor with data := other, offset := cursor.offset + taken.length })) := by
  obtain ⟨taken, rest, takes⟩ := scans_local.instruction format cursor
  have moves := instruction_moves format cursor some
  rw [takes.left, takes.data, List.length_append] at moves
  have something : 0 < taken.length := Nat.lt_add_left_iff_pos.mp moves
  refine ⟨taken, rest, List.length_pos_iff.mp something, takes.data, takes.left, fun enough => ⟨?_, ?_⟩⟩
  · have first : firstInstruction format cursor =
        if RanOut ((readInstruction format).run cursor).1 then cursor.data
        else cursor.data.take (cursor.data.length - ((readInstruction format).run cursor).2.data.length) := rfl
    rw [first, takes.left, enough, takes.data, List.length_append, Nat.add_sub_cancel]
    exact List.take_left
  · exact takes.decided enough

/-- An instruction that is decoded is decoded from the bytes it takes, whatever follows them. -/
theorem decode_taken {cursor : Cursor} {instruction : Instruction} (some : cursor.data ≠ [])
    (read : (readInstruction format).value cursor = .ok instruction) :
    ∃ taken rest, taken ≠ [] ∧ cursor.data = taken ++ rest ∧
      ((readInstruction format).run cursor).2 =
        { cursor with data := rest, offset := cursor.offset + taken.length } ∧
      ∀ other, decodeProgram format { cursor with data := taken ++ other } =
        .ok instruction :: decodeProgram format
          { cursor with data := other, offset := cursor.offset + taken.length } := by
  obtain ⟨taken, rest, something, split, left, decided⟩ := first_decides format cursor some
  refine ⟨taken, rest, something, split, left, fun other => ?_⟩
  have longer : taken ++ other ≠ [] := List.append_ne_nil_of_left_ne_nil something other
  change ((readInstruction format).run cursor).1 = _ at read
  rw [read] at decided
  rw [decode_run format { cursor with data := taken ++ other } longer, (decided rfl).2 other]

end First

end CallFrame
