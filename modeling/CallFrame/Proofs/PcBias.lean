import CallFrame.Proofs.Decoding
import CallFrame.Scripted
import Mathlib.Tactic.ByContra

/-!
Where a frame is looked up. A return address is looked up one byte before, and the program counter
of a frame that made no call is looked up as it is: that of the innermost frame, of a signal
trampoline that the architecture recognizes, and of the frame that a signal interrupted. The last case
is told from what was decoded for the inner frame, so it is missed where the inner frame is a
trampoline and could not be decoded.
-/

namespace CallFrame

namespace Occasion

variable (o : Occasion) (level : Nat)

def Declared : Prop :=
  ∃ located, o.located level = .ok located ∧ located.entry.cie.isSignalFrame = true

/-- The frame is a signal trampoline to an unwinder of the given configuration: the architecture
recognizes it, or the function that is found declares itself one and such declarations count. -/
def Trampoline (config : Config) : Prop :=
  o.recognized level = true ∨ config.signalAugmentation = true ∧ o.Declared level

def Flagged : Prop := ∃ cache, o.decoded level = .ok cache ∧ cache.signalFrame = true

/-- What is decoded for the frame does not say whether it is a trampoline to an unwinder of the given
configuration. It is one and could not be decoded, or it declares itself one and was decoded under a
configuration that takes such declarations differently. -/
inductive Misjudged (config : Config) : Prop
  | lost (fault : Fault) (trampoline : o.Trampoline level config)
      (failed : o.decoded level = .error fault)
  | otherwise (cache : FrameCache) (done : o.decoded level = .ok cache)
      (generic : o.recognized level = false) (declared : o.Declared level)
      (differs : o.unwinder.config.signalAugmentation ≠ config.signalAugmentation)

def LooksUpAt (address : UInt64) : Prop :=
  match o.located level with
  | .ok located =>
    located.lookupPc = address ∧ o.unwinder.cfi.find address = some located.entry
  | .error fault => fault = .notCovered address ∧ o.unwinder.cfi.find address = none

theorem located_signal (located : Located) (found : o.located level = .ok located) :
    located.signalFrame = (o.recognized level ||
      o.unwinder.config.signalAugmentation && located.entry.cie.isSignalFrame) := by
  obtain ⟨-, address, -, found⟩ := o.located_ok level located found
  rw [Unwinder.functionAt] at found
  split at found
  · cases found
  · cases found
    rfl

theorem flagged_iff :
    o.Flagged level ↔
      (∃ cache, o.decoded level = .ok cache) ∧ o.Trampoline level o.unwinder.config := by
  constructor
  · rintro ⟨cache, done, flag⟩
    obtain ⟨located, unwound, cfa, found, -, -, rfl⟩ := o.decoded_ok level cache done
    refine ⟨⟨_, done⟩, ?_⟩
    change located.signalFrame = true at flag
    rw [located_signal o level located found, Bool.or_eq_true, Bool.and_eq_true] at flag
    exact flag.imp_right fun ⟨counts, declared⟩ => ⟨counts, located, found, declared⟩
  · rintro ⟨⟨cache, done⟩, trampoline⟩
    refine ⟨cache, done, ?_⟩
    obtain ⟨located, unwound, cfa, found, -, -, rfl⟩ := o.decoded_ok level cache done
    change located.signalFrame = true
    rw [located_signal o level located found, Bool.or_eq_true, Bool.and_eq_true]
    refine trampoline.imp_right fun ⟨counts, other, found', declared⟩ => ⟨counts, ?_⟩
    rw [found] at found'
    cases found'
    exact declared

theorem misjudged_iff (config : Config) :
    o.Misjudged level config ↔ ¬ (o.Flagged level ↔ o.Trampoline level config) := by
  rw [flagged_iff]
  cases outcome : o.decoded level with
  | error fault =>
      have failed : ¬ ∃ cache, (.error fault : Except Fault FrameCache) = .ok cache := by simp
      constructor
      · rintro (⟨_, trampoline, -⟩ | ⟨cache, done, -⟩)
        · intro same
          exact failed (same.mpr trampoline).1
        · rw [outcome] at done
          cases done
      · intro differs
        refine .lost fault ?_ outcome
        by_contra other
        exact differs ⟨fun flagged => absurd flagged.1 failed, fun trampoline => absurd trampoline other⟩
  | ok cache =>
      have decodes : ∃ cache', (.ok cache : Except Fault FrameCache) = .ok cache' := ⟨cache, rfl⟩
      constructor
      · rintro (⟨fault, -, failed⟩ | ⟨_, -, generic, declared, differs⟩)
        · rw [outcome] at failed
          cases failed
        · intro same
          simp only [Trampoline, generic, Bool.false_eq_true, false_or, declared, and_true,
            decodes, true_and] at same
          exact differs (Bool.eq_iff_iff.mpr same)
      · intro differs
        simp only [decodes, true_and] at differs
        have generic : o.recognized level = false := by
          by_contra recognized
          rw [Bool.not_eq_false] at recognized
          exact differs (by simp [Trampoline, recognized])
        have declared : o.Declared level := by
          by_contra undeclared
          exact differs (by simp [Trampoline, undeclared])
        refine .otherwise cache outcome generic declared fun same => differs ?_
        simp only [Trampoline, same]

theorem looks_up_at (pc : UInt64) (enabled : o.unwinder.arch.dwarfCfi = true)
    (present : o.session.chain.contains level = true) (readable : o.pc level = .ok pc)
    (exact : Bool)
    (decides : exact = if o.recognized level then true
      else ((o.unwinder.exactPc level).run (o.afterHook level)).1) (address : UInt64) :
    o.LooksUpAt level address ↔ address = if exact then pc else pc - 1 := by
  rw [LooksUpAt, located_eq]
  simp only [enabled, present, readable, Bool.not_true, Bool.false_eq_true, ↓reduceIte, ← decides]
  generalize (if exact = true then pc else pc - 1) = actual
  rw [Unwinder.functionAt]
  cases covered : o.unwinder.cfi.find actual with
  | none =>
      constructor
      · rintro ⟨same, -⟩
        cases same
        rfl
      · rintro rfl
        exact ⟨rfl, covered⟩
  | some entry =>
      constructor
      · rintro ⟨same, -⟩
        exact same.symm
      · rintro rfl
        exact ⟨rfl, covered⟩

/-- The frame is looked up by the rule: at its program counter in the exact cases, and one byte before
it in all others. -/
def LookedUpBy (pc : UInt64) (exact : Prop) : Prop :=
  (exact → o.LooksUpAt level pc) ∧ (¬ exact → o.LooksUpAt level (pc - 1))

theorem looked_up_by_iff (pc : UInt64) (enabled : o.unwinder.arch.dwarfCfi = true)
    (present : o.session.chain.contains level = true) (readable : o.pc level = .ok pc)
    (exact : Prop) :
    o.LookedUpBy level pc exact ↔
      (((if o.recognized level then true
        else ((o.unwinder.exactPc level).run (o.afterHook level)).1) = true) ↔ exact) := by
  have different : pc ≠ pc - 1 := by
    intro same
    have counted := congrArg UInt64.toNat same
    have bound := pc.toNat_lt
    rw [UInt64.toNat_sub, UInt64.toNat_one] at counted
    omega
  have at_address := o.looks_up_at level pc enabled present readable _ rfl
  rw [LookedUpBy, at_address, at_address]
  generalize (if o.recognized level then true
    else ((o.unwinder.exactPc level).run (o.afterHook level)).1) = actual
  cases actual <;> by_cases exact <;> simp_all [different.symm]

end Occasion

open Occasion

theorem exact_pc_flagged (u : Unwinder) (session : Session) (level : Nat) (inner : Occasion)
    (fills : inner.Fills level u session) :
    ((u.exactPc (level + 1)).run session).1 = true ↔ inner.Flagged level := by
  have answer := inner.cache_decoded level u session fills
  rw [Unwinder.exactPc, Unwinder.interrupted, SessionM.run_bind, answer, Flagged]
  cases inner.decoded level with
  | error fault =>
      constructor
      · rintro ⟨⟩
      · rintro ⟨cache, ⟨⟩, -⟩
  | ok cache =>
      constructor
      · intro flag
        exact ⟨cache, rfl, flag⟩
      · rintro ⟨_, ⟨⟩, flag⟩
        exact flag

/-- A frame is looked up at its program counter if it is the innermost one, if the architecture
recognizes it as a trampoline, or if the inner frame was decoded as one; else one byte before. That is
the rule for return addresses exactly if the inner frame, where it is asked for, is not a trampoline
that could not be decoded, nor one that was decoded under another configuration. -/
theorem bias_rule_exact (now inner : Occasion) (level : Nat) (pc : UInt64)
    (enabled : now.unwinder.arch.dwarfCfi = true)
    (present : now.session.chain.contains level = true) (readable : now.pc level = .ok pc)
    (fills : level ≠ 0 → inner.Fills (level - 1) now.unwinder (now.afterHook level)) :
    let config := now.unwinder.config
    now.LookedUpBy level pc
      (level = 0 ∨ now.recognized level = true ∨ inner.Flagged (level - 1)) ∧
    (now.LookedUpBy level pc
        (level = 0 ∨ now.recognized level = true ∨ inner.Trampoline (level - 1) config) ↔
      ¬ (level ≠ 0 ∧ now.recognized level = false ∧ inner.Misjudged (level - 1) config)) := by
  intro config
  simp only [now.looked_up_by_iff level pc enabled present readable]
  cases level with
  | zero =>
      have innermost : ((now.unwinder.exactPc 0).run (now.afterHook 0)).1 = true := rfl
      simp [innermost]
  | succ level =>
      have flagged := exact_pc_flagged now.unwinder _ level inner (fills (Nat.succ_ne_zero level))
      rw [misjudged_iff]
      simp only [Nat.add_sub_cancel]
      cases now.recognized (level + 1) <;> simp [flagged]

/-- Frame 0 is in a function that declares itself a trampoline and has the given program. It was
entered from frame 1, at the first byte of another function. -/
def enteredTrampoline (program : List UInt8) : Occasion where
  unwinder := {
    arch := sampleArch
    cfi := .ofFunctions [
      ({ sampleCie program with augmentation := some { signalFrame := true } },
        sampleFde 0x1000 []),
      (sampleCie [0x0c, 7, 16], sampleFde 0x2000 [])]
    inferior := Scripted.Snapshot.inferior {
      registers := [((0, ⟨16⟩), 0x1010), ((0, ⟨7⟩), 0x7000), ((1, ⟨16⟩), 0x2000)] }
    evaluator := Scripted.byteEvaluator }
  session := { chain := { callers := [none] } }

def enteredTrampolineInner (program : List UInt8) : Occasion where
  unwinder := (enteredTrampoline program).unwinder
  session := ((enteredTrampoline program).afterHook 1).withDecoding 0

theorem entered_trampoline_declared (program : List UInt8)
    (found : ((enteredTrampolineInner program).located 0).toOption.any
      (·.entry.cie.isSignalFrame) = true) :
    (enteredTrampolineInner program).Trampoline 0 {} := by
  refine .inr ⟨rfl, ?_⟩
  obtain ⟨located, outcome, declared⟩ := (Option.any_eq_true _ _).mp found
  exact ⟨located, ok_of_to_option outcome, declared⟩

-- The trampoline has a rule for its frame address, so frame 1 is looked up where it was interrupted.
theorem bias_rule_decoded_trampoline :
    let now := enteredTrampoline [0x0c, 7, 16]
    let inner := enteredTrampolineInner [0x0c, 7, 16]
    now.unwinder.arch.dwarfCfi = true ∧ now.session.chain.contains 1 = true ∧
      now.pc 1 = .ok 0x2000 ∧ inner.Fills 0 now.unwinder (now.afterHook 1) ∧
      inner.Trampoline 0 now.unwinder.config ∧ now.LooksUpAt 1 0x2000 := by
  intro now inner
  have fills : inner.Fills 0 now.unwinder (now.afterHook 1) := rfl
  have trampoline : inner.Trampoline 0 now.unwinder.config :=
    entered_trampoline_declared _ (by decide +kernel)
  have decodes : (inner.decoded 0).toOption.isSome = true := by decide +kernel
  have rule := (bias_rule_exact now inner 1 0x2000 rfl rfl rfl fun _ => fills).2.mpr <| by
    rintro ⟨-, -, ⟨fault, -, failed⟩ | ⟨-, -, -, -, differs⟩⟩
    · change inner.decoded 0 = .error fault at failed
      rw [failed] at decodes
      cases decodes
    · exact differs rfl
  exact ⟨rfl, rfl, rfl, fills, trampoline, rule.1 (.inr (.inr trampoline))⟩

-- Without such a rule frame 0 is no less a trampoline, but frame 1 is looked up before the byte where
-- it was interrupted, in no function at all.
theorem undecoded_trampoline_forgotten :
    let now := enteredTrampoline []
    let inner := enteredTrampolineInner []
    now.unwinder.arch.dwarfCfi = true ∧ now.session.chain.contains 1 = true ∧
      now.pc 1 = .ok 0x2000 ∧ inner.Fills 0 now.unwinder (now.afterHook 1) ∧
      inner.Trampoline 0 now.unwinder.config ∧
      ¬ now.LooksUpAt 1 0x2000 ∧ now.LooksUpAt 1 0x1fff ∧
      now.unwinder.cfi.find 0x1fff = none := by
  intro now inner
  have actual := now.looks_up_at 1 0x2000 rfl rfl rfl false (by decide +kernel)
  refine ⟨rfl, rfl, rfl, rfl, entered_trampoline_declared _ (by decide +kernel), ?_, ?_, ?_⟩
  · rw [actual]
    decide
  · rw [actual]
    decide
  · rw [← Option.isNone_iff_eq_none]
    decide +kernel

end CallFrame
