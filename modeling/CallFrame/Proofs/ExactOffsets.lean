import CallFrame.Proofs.Decoding
import CallFrame.Proofs.InPlace

/-!
Offsets that are exact or refused. An instruction that carries an offset describes an integer. What it
stores is that integer, and one that no word holds is refused.
-/

namespace CallFrame

/-! Offsets that instructions carry. -/
section Carried

inductive OffsetPlace where
  /-- The column is saved at the offset from the frame address. -/
  | saved (raw : UInt64)
  /-- The value of the column is the frame address and the offset. -/
  | value (raw : UInt64)
  /-- The frame address is the value of the column and the offset. -/
  | frame (raw : UInt64)
  /-- The same, with the column that the rule of the frame address has. -/
  | held

structure CarriedOffset where
  place : OffsetPlace
  number : Int
  /-- What is computed on the way to it. -/
  before : List Int

def Instruction.carriedOffset (cie : Cie) : Instruction → Option CarriedOffset
  | .defCfa raw units => some ⟨.frame raw, units.toNat, []⟩
  | .defCfaSf raw units => some ⟨.frame raw, units.toInt * cie.dataAlignment.toInt, []⟩
  | .defCfaOffset units => some ⟨.held, units.toNat, []⟩
  | .defCfaOffsetSf units => some ⟨.held, units.toInt * cie.dataAlignment.toInt, []⟩
  | .offset raw units => some ⟨.saved raw, units.toNat * cie.dataAlignment.toInt, [units.toNat]⟩
  | .offsetExtendedSf raw units => some ⟨.saved raw, units.toInt * cie.dataAlignment.toInt, []⟩
  | .negativeOffsetExtended raw units =>
    some ⟨.saved raw, -(units.toNat * cie.dataAlignment.toInt),
      [(units.toNat : Int), units.toNat * cie.dataAlignment.toInt]⟩
  | .valOffset raw units => some ⟨.value raw, units.toNat * cie.dataAlignment.toInt, [units.toNat]⟩
  | .valOffsetSf raw units => some ⟨.value raw, units.toInt * cie.dataAlignment.toInt, []⟩
  | _ => none

namespace OffsetPlace

variable (target : Target) (entry : CfiEntry)

def Puts (word : Int64) (state after : RunState) : OffsetPlace → Prop
  | saved raw => ∃ column, target.column entry.kind raw = .ok column ∧
    state.setRule column (.savedAtOffset word) = after
  | value raw => ∃ column, target.column entry.kind raw = .ok column ∧
    state.setRule column (.savedValueAtOffset word) = after
  | frame raw => ∃ column, target.column entry.kind raw = .ok column ∧
    state.setCfa (.registerAndOffset column word) = after
  | held => state.setCfaOffset word = after

def InRange : OffsetPlace → Prop
  | saved raw | value raw | frame raw => ∃ column, target.column entry.kind raw = .ok column
  | held => True

variable {target : Target} {entry : CfiEntry}

theorem puts_some (place : OffsetPlace) (word : Int64) (state : RunState) :
    (∃ after, place.Puts target entry word state after) ↔ place.InRange target entry := by
  cases place with
  | held => exact ⟨fun _ => trivial, fun _ => ⟨_, rfl⟩⟩
  | saved raw | value raw | frame raw =>
      constructor
      · rintro ⟨after, column, accepted, -⟩
        exact ⟨column, accepted⟩
      · rintro ⟨column, accepted⟩
        exact ⟨_, column, accepted, rfl⟩

end OffsetPlace

/-- The computation comes to the number, if all the numbers on the way and itself are words. -/
structure Computes (computed : Except Fault Int64) (before : List Int) (number : Int) : Prop where
  exact word : computed = .ok word → word.toInt = number
  fits : (∃ word, computed = .ok word) ↔ (∀ other ∈ before, FitsWord other) ∧ FitsWord number

theorem computes_exact (refusal : Fault) (number : Int) : Computes (exactOffset refusal number) [] number := by
  refine ⟨fun word accepted => (exact_offset_ok accepted).2, ?_, ?_⟩
  · rintro ⟨word, accepted⟩
    rw [← (exact_offset_ok accepted).2]
    exact ⟨by rintro other ⟨⟩, word_fits word⟩
  · rintro ⟨-, fits⟩
    exact ⟨_, if_pos fits⟩

theorem computes_bind {computed : Except Fault Int64} {follow : Int64 → Except Fault Int64} {before : List Int}
    {middle number : Int} (first : Computes computed before middle)
    (second : ∀ word : Int64, word.toInt = middle → Computes (follow word) [] number) :
    Computes (computed >>= follow) (before ++ [middle]) number := by
  constructor
  · intro word accepted
    obtain ⟨other, accepted, followed⟩ := bind_ok accepted
    exact (second other (first.exact other accepted)).exact word followed
  simp only [List.mem_append, List.mem_singleton, or_imp, forall_and, forall_eq]
  rw [← first.fits]
  constructor
  · rintro ⟨word, accepted⟩
    obtain ⟨other, accepted, followed⟩ := bind_ok accepted
    exact ⟨⟨other, accepted⟩, ((second other (first.exact other accepted)).fits.mp ⟨word, followed⟩).2⟩
  · rintro ⟨⟨other, accepted⟩, fits⟩
    rw [accepted]
    exact (second other (first.exact other accepted)).fits.mpr ⟨by rintro _ ⟨⟩, fits⟩

theorem computes_signed (cie : Cie) (units : Int64) :
    Computes (signedOffset cie units) [] (units.toInt * cie.dataAlignment.toInt) := computes_exact _ _

theorem computes_unsigned (cie : Cie) (units : UInt64) :
    Computes (unsignedOffset cie units) [(units.toNat : Int)] (units.toNat * cie.dataAlignment.toInt) := by
  apply computes_bind (computes_exact _ _)
  rintro word same
  rw [← same]
  exact computes_exact _ _

theorem computes_negated (cie : Cie) (units : UInt64) :
    Computes (negatedOffset cie units) [(units.toNat : Int), units.toNat * cie.dataAlignment.toInt]
      (-(units.toNat * cie.dataAlignment.toInt)) := by
  apply computes_bind (computes_unsigned cie units)
  rintro word same
  rw [← same]
  exact computes_exact _ _

section Step

variable {target : Target} {entry : CfiEntry} {instruction : Instruction} {carried : CarriedOffset}

-- The register may be looked up before or after the offset is computed.
theorem column_first {column : Except Fault Register} {offset : Except Fault Int64}
    {put : Register → Int64 → RunState} {after : RunState} :
    (do return put (← column) (← offset)) = (.ok after : Except Fault RunState) ↔
      ∃ word, offset = .ok word ∧ ∃ r, column = .ok r ∧ put r word = after := by
  cases column <;> cases offset <;> simp [Bind.bind, Except.bind, pure, Except.pure]

theorem offset_first {column : Except Fault Register} {offset : Except Fault Int64}
    {put : Register → Int64 → RunState} {after : RunState} :
    (do let word ← offset; return put (← column) word) = (.ok after : Except Fault RunState) ↔
      ∃ word, offset = .ok word ∧ ∃ r, column = .ok r ∧ put r word = after := by
  cases column <;> cases offset <;> simp [Bind.bind, Except.bind, pure, Except.pure]

theorem offset_alone {offset : Except Fault Int64} {put : Int64 → RunState} {after : RunState} :
    (do return put (← offset)) = (.ok after : Except Fault RunState) ↔
      ∃ word, offset = .ok word ∧ put word = after := by
  cases offset <;> simp [Bind.bind, Except.bind, pure, Except.pure]

variable (target) in
/-- An instruction that carries an offset computes it and puts it in its place, and does nothing else. -/
theorem step_puts (carries : instruction.carriedOffset entry.cie = some carried) :
    ∃ computed, Computes computed carried.before carried.number ∧
      ∀ state after, step target entry instruction state = .ok after ↔
        ∃ word, computed = .ok word ∧ carried.place.Puts target entry word state after := by
  cases instruction with
  | defCfa raw units =>
      cases carries
      exact ⟨_, computes_exact _ _, fun _ _ => column_first⟩
  | defCfaSf raw units =>
      cases carries
      exact ⟨_, computes_signed _ _, fun _ _ => column_first⟩
  | defCfaOffset units =>
      cases carries
      exact ⟨_, computes_exact _ _, fun _ _ => offset_alone⟩
  | defCfaOffsetSf units =>
      cases carries
      exact ⟨_, computes_signed _ _, fun _ _ => offset_alone⟩
  | offset raw units | valOffset raw units =>
      cases carries
      exact ⟨_, computes_unsigned _ _, fun _ _ => offset_first⟩
  | offsetExtendedSf raw units | valOffsetSf raw units =>
      cases carries
      exact ⟨_, computes_signed _ _, fun _ _ => offset_first⟩
  | negativeOffsetExtended raw units =>
      cases carries
      exact ⟨_, computes_negated _ _, fun _ _ => offset_first⟩
  | _ => cases carries

/-- It is carried out if its register is in range and all its numbers are words, and not otherwise. -/
theorem step_carried (carries : instruction.carriedOffset entry.cie = some carried) (state : RunState) :
    (∃ after, step target entry instruction state = .ok after) ↔
      carried.place.InRange target entry ∧ (∀ number ∈ carried.before, FitsWord number) ∧
        FitsWord carried.number := by
  obtain ⟨computed, computes, puts⟩ := step_puts target carries
  simp only [puts]
  rw [← computes.fits]
  constructor
  · rintro ⟨after, word, accepted, put⟩
    exact ⟨(carried.place.puts_some word state).mp ⟨after, put⟩, word, accepted⟩
  · rintro ⟨named, word, accepted⟩
    obtain ⟨after, put⟩ := (carried.place.puts_some word state).mpr named
    exact ⟨after, word, accepted, put⟩

theorem step_advances (state : RunState) (delta : UInt64) :
    ∃ after, step target entry (.advanceLoc delta) state = .ok after ∧
      after.location.toNat =
        min (state.location.toNat + delta.toNat * entry.cie.codeAlignment.toNat) (2 ^ 64 - 1) ∧
      after.table = state.table ∧ after.initial = state.initial ∧ after.warnings = state.warnings := by
  refine ⟨_, rfl, ?_, rfl, rfl, rfl⟩
  exact word_nat _ (by omega)

end Step

end Carried

def alignedEntry : CfiEntry where
  cie := sampleCie []
  fde := sampleFde 0x1000 []
  kind := .debugFrame
  bias := 0
  endian := .little
  bases := { sectionAddress := 0 }

end CallFrame
