import CallFrame.Proofs.ReturnAddress

/-!
Applying the rules of a decoded frame. A rule that refers to the return address is applied by applying the
rule for the return address, which would not end if that one referred to the return address, too. Decoding
never yields such a rule, so that one more application is all it takes.
-/

namespace CallFrame

def RegisterRule.refersToReturn : RegisterRule → Bool
  | .returnAddress | .returnAddressAtOffset _ => true
  | _ => false

namespace Unwinder

def displaced (level : Nat) (offset : Int64) (finding : UnwindM RegisterValue) : UnwindM RegisterValue := do
  match (← finding).known with
  | some value => return .computed (value + offset.toUInt64)
  | none => throw (.noReturnAddress level)

section Application

variable (u : Unwinder) (cache : FrameCache) (level : Nat)

/-- Applying the rule to the register comes to the recovering, with as many nested applications. Each is of
the rule for the return address, whatever that is, to its column. -/
inductive Applies : Register → RegisterRule → Nat → UnwindM RegisterValue → Prop where
  | direct {r : Register} {rule : RegisterRule} (plain : rule.refersToReturn = false) :
      Applies r rule 0 (u.applyDirect cache level r rule)
  | follow {r : Register} {calls : Nat} {found : UnwindM RegisterValue}
      (nested : Applies cache.returnColumn cache.returnRule calls found) :
      Applies r .returnAddress (calls + 1) found
  | displace {r : Register} {offset : Int64} {calls : Nat} {found : UnwindM RegisterValue}
      (nested : Applies cache.returnColumn cache.returnRule calls found) :
      Applies r (.returnAddressAtOffset offset) (calls + 1) (displaced level offset found)

variable {u cache level} {r : Register} {rule : RegisterRule} {calls calls' : Nat}
  {found found' : UnwindM RegisterValue}

theorem applies_unique (one : Applies u cache level r rule calls found)
    (other : Applies u cache level r rule calls' found') : calls' = calls ∧ found' = found := by
  induction one generalizing calls' found' with
  | direct plain =>
      cases other with
      | direct => exact ⟨rfl, rfl⟩
      | follow | displace => cases plain
  | follow _ ih =>
      cases other with
      | direct plain => cases plain
      | follow nested =>
          obtain ⟨rfl, rfl⟩ := ih nested
          exact ⟨rfl, rfl⟩
  | displace _ ih =>
      cases other with
      | direct plain => cases plain
      | displace nested =>
          obtain ⟨rfl, rfl⟩ := ih nested
          exact ⟨rfl, rfl⟩

-- An application that gets to the rule for the return address gets to it again.
theorem circular_never_applies (circular : cache.returnRule.refersToReturn)
    (applied : Applies u cache level r rule calls found) : rule.refersToReturn = false := by
  induction applied with
  | direct plain => exact plain
  | follow _ ih | displace _ ih =>
      rw [circular] at ih
      cases ih

theorem applies_once (u : Unwinder) (level : Nat) (r : Register) (rule : RegisterRule)
    (settled : cache.returnRule.refersToReturn = false) :
    Applies u cache level r rule (if rule.refersToReturn then 1 else 0) (u.apply cache level r rule) := by
  have nested := @Applies.direct u cache level cache.returnColumn _ settled
  cases rule with
  | returnAddress => exact .follow nested
  | returnAddressAtOffset offset => exact .displace nested
  | _ => exact .direct rfl

/-- A rule that refers to the return address can be applied exactly if the rule for that does not refer to it
again. -/
theorem application_ends_iff (u : Unwinder) (level : Nat) (r : Register) (rule : RegisterRule) :
    (∃ calls found, Applies u cache level r rule calls found) ↔
      (rule.refersToReturn → cache.returnRule.refersToReturn = false) := by
  constructor
  · rintro ⟨calls, found, applied⟩ refers
    cases circular : cache.returnRule.refersToReturn with
    | false => rfl
    | true => cases refers.symm.trans (circular_never_applies circular applied)
  · intro settled
    cases refers : rule.refersToReturn with
    | false => exact ⟨0, _, .direct refers⟩
    | true => exact ⟨_, _, applies_once u level r rule (settled refers)⟩

end Application

theorem return_rule_settled (column : Register) (rule : RegisterRule) :
    (returnRule column rule).refersToReturn = false := by
  cases rule <;> rfl

theorem return_rule_known (column : Register) (rule : RegisterRule) :
    returnRule column rule ≠ .unspecified ∧ returnRule column rule ≠ .sameValue := by
  cases rule <;> constructor <;> rintro ⟨⟩

theorem return_rule_undefined (column : Register) (rule : RegisterRule) :
    returnRule column rule = .undefined ↔ rule = .undefined := by
  cases rule <;> simp [returnRule]

/-- No register is left that is the return address, if the rule that takes its place says something else. -/
theorem followed_nowhere {rule : RegisterRule} (other : rule ≠ .returnAddress) (row : Row) (r : Register) :
    (followReturn rule row).rule r ≠ .returnAddress := by
  rw [rule_follow_return]
  split
  next => exact other
  next direct => exact direct

end Unwinder

structure FrameCache.Resolved (cache : FrameCache) : Prop where
  followed : ∀ r, cache.row.rule r ≠ .returnAddress
  settled : cache.returnRule.refersToReturn = false
  known : cache.returnRule ≠ .unspecified ∧ cache.returnRule ≠ .sameValue
  outermost : cache.outermost = true ↔ cache.returnRule = .undefined

open Unwinder

theorem Unwinder.frame_cache_resolved (located : Located) (unwound : UnwindRow) (cfa : UInt64) :
    (frameCache located unwound cfa).Resolved := by
  have settled := return_rule_settled unwound.returnColumn (unwound.row.rule unwound.returnColumn)
  refine ⟨fun r => followed_nowhere ?_ unwound.row r, settled, return_rule_known _ _, ?_⟩
  · intro follows
    rw [follows] at settled
    cases settled
  · exact decide_eq_true_iff.trans (return_rule_undefined _ _).symm

theorem Occasion.decoded_resolved (o : Occasion) (level : Nat) (cache : FrameCache)
    (decodes : o.decoded level = .ok cache) : cache.Resolved := by
  obtain ⟨located, unwound, cfa, -, -, -, rfl⟩ := o.decoded_ok level cache decodes
  exact frame_cache_resolved located unwound cfa

/-- In the rules of a frame that was decoded, whatever its function says and the architecture adds, no
register is the return address any more. The rule for the return address is a definite one that does not
refer to the return address again, and says that the value is lost exactly for the outermost frame. So for
every register, and every rule that is applied to it, application ends after one nested one at most, and finds
what the unwinder finds. -/
theorem decoded_rules_apply (o : Occasion) (level : Nat) (cache : FrameCache)
    (decodes : o.decoded level = .ok cache) :
    (∀ r, cache.row.rule r ≠ .returnAddress) ∧
    (cache.returnRule ≠ .unspecified ∧ cache.returnRule ≠ .sameValue ∧ cache.returnRule ≠ .returnAddress ∧
      ∀ offset, cache.returnRule ≠ .returnAddressAtOffset offset) ∧
    (cache.outermost = true ↔ cache.returnRule = .undefined) ∧
    ∀ (u : Unwinder) (level' : Nat) (r : Register) (rule : RegisterRule),
      (∃ calls found, Applies u cache level' r rule calls found) ∧
      ∀ calls found, Applies u cache level' r rule calls found →
        calls ≤ 1 ∧ found = u.apply cache level' r rule := by
  obtain ⟨followed, settled, known, outermost⟩ := o.decoded_resolved level cache decodes
  refine ⟨followed, ⟨known.1, known.2, ?_, ?_⟩, outermost, fun u level' r rule => ?_⟩
  · intro circular
    rw [circular] at settled
    cases settled
  · intro offset circular
    rw [circular] at settled
    cases settled
  · refine ⟨(application_ends_iff u level' r rule).mpr fun _ => settled, fun calls found applied => ?_⟩
    obtain ⟨rfl, rfl⟩ := applies_unique (applies_once u level' r rule settled) applied
    exact ⟨by split <;> decide, rfl⟩

/-- Where the architecture says of the return address column that it lies behind the return address, the column
is taken to hold the return address, and the value of register 16 is the address behind it. -/
theorem circular_rules_apply :
    let o := returningOccasion (.returnAddressAtOffset 1)
    ∃ cache, o.decoded 0 = .ok cache ∧
      cache.row.rule ⟨11⟩ = .savedInRegister ⟨16⟩ ∧ cache.row.rule ⟨16⟩ = .returnAddressAtOffset 1 ∧
      cache.row.rule ⟨11⟩ ≠ .returnAddress ∧ cache.returnRule ≠ .returnAddressAtOffset 1 ∧
      ¬ Applies o.unwinder cache 0 ⟨16⟩ (.returnAddressAtOffset 1) 2
        (o.unwinder.apply cache 0 ⟨16⟩ (.returnAddressAtOffset 1)) ∧
      ((o.unwinder.apply cache 0 ⟨16⟩ (.returnAddressAtOffset 1)).run.run {}).1.toOption =
        some (.computed 0x1011) := by
  intro o
  have rules : (o.decoded 0).toOption.map (fun cache => (cache.row.rule ⟨11⟩, cache.row.rule ⟨16⟩,
      ((o.unwinder.apply cache 0 ⟨16⟩ (.returnAddressAtOffset 1)).run.run {}).1.toOption)) =
      some (.savedInRegister ⟨16⟩, .returnAddressAtOffset 1, some (.computed 0x1011)) := by decide +kernel
  obtain ⟨cache, decodes, rules⟩ := Option.map_eq_some_iff.mp rules
  simp only [Prod.mk.injEq] at rules
  obtain ⟨followed, definite, -, applies⟩ := decoded_rules_apply o 0 cache (ok_of_to_option decodes)
  refine ⟨cache, ok_of_to_option decodes, rules.1, rules.2.1, followed ⟨11⟩, definite.2.2.2 1, ?_, rules.2.2⟩
  intro twice
  exact absurd ((applies o.unwinder 0 ⟨16⟩ (.returnAddressAtOffset 1)).2 2 _ twice).1 (by decide)

end CallFrame
