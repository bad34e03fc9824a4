import CallFrame.Proofs.Reading

/-!
Two readings side by side. They are done with steps and from cursors that need not be the same, but go
together: both succeed or both fail in the same way, and what they leave is related as what they began
with.
-/

namespace CallFrame

inductive Alike (R : α → β → Prop) : Except Fault α → Except Fault β → Prop
  | ok {one : α} {other : β} (related : R one other) : Alike R (.ok one) (.ok other)
  | error (fault : Fault) : Alike R (.error fault) (.error fault)

theorem alike_same (result : Except Fault α) : Alike Eq result result := by
  cases result with
  | ok value => exact .ok rfl
  | error fault => exact .error fault

theorem alike_imp {R S : α → β → Prop} {one : Except Fault α} {other : Except Fault β}
    (alike : Alike R one other) (weaker : ∀ value value', R value value' → S value value') :
    Alike S one other := by
  cases alike with
  | ok related => exact .ok (weaker _ _ related)
  | error fault => exact .error fault

/-- From these two cursors, the steps answer alike and leave related cursors. -/
def Abreast (left : Cursor → Cursor → Prop) (R : α → β → Prop) (one : ReadM α) (other : ReadM β)
    (here there : Cursor) : Prop :=
  Alike R (one.run here).1 (other.run there).1 ∧ left (one.run here).2 (other.run there).2

section Abreast

variable {left : Cursor → Cursor → Prop} {R : α → β → Prop} {S : γ → δ → Prop} {here there : Cursor}

theorem abreast_pure {value : α} {value' : β} (related : R value value') (same : left here there) :
    Abreast left R (pure value) (pure value') here there :=
  ⟨.ok related, same⟩

theorem abreast_throw (fault : Fault) (same : left here there) :
    Abreast left R (throw fault) (throw fault) here there :=
  ⟨.error fault, same⟩

theorem abreast_lift {result : Except Fault α} {result' : Except Fault β} (alike : Alike R result result')
    (same : left here there) : Abreast left R (liftM result) (liftM result') here there := by
  cases alike with
  | ok related => exact abreast_pure related same
  | error fault => exact abreast_throw fault same

/-- The steps that follow go abreast from where the first ones have led. -/
theorem abreast_bind {one : ReadM α} {other : ReadM β} {follow : α → ReadM γ} {follow' : β → ReadM δ}
    (first : Abreast left R one other here there)
    (rest : ∀ value value' after after', one.run here = (.ok value, after) → R value value' →
      left after after' → Abreast left S (follow value) (follow' value') after after') :
    Abreast left S (one >>= follow) (other >>= follow') here there := by
  obtain ⟨alike, same⟩ := first
  unfold Abreast
  rw [ReadM.run_bind, ReadM.run_bind]
  rcases ran : one.run here with ⟨result, after⟩
  rw [ran] at alike same
  generalize other.run there = ran' at alike same ⊢
  rcases ran' with ⟨result', after'⟩
  dsimp only at alike
  cases alike with
  | error fault => exact ⟨.error fault, same⟩
  | ok related => exact rest _ _ after after' ran related same

theorem abreast_get {follow : Cursor → ReadM γ} {follow' : Cursor → ReadM δ}
    (rest : Abreast left S (follow here) (follow' there) here there) :
    Abreast left S (get >>= follow) (get >>= follow') here there := by
  unfold Abreast
  rw [ReadM.run_bind, ReadM.run_bind, ReadM.run_get, ReadM.run_get]
  exact rest

theorem abreast_imp {R' : α → β → Prop} {one : ReadM α} {other : ReadM β}
    (steps : Abreast left R one other here there) (weaker : ∀ value value', R value value' → R' value value') :
    Abreast left R' one other here there :=
  ⟨alike_imp steps.1 weaker, steps.2⟩

end Abreast

end CallFrame
