import CallFrame.Proofs.OpcodePolicy
import CallFrame.Proofs.PcBias

/-!
What it takes to say whether a frame can be unwound. The frame itself is not decoded for it. But its
program counter may be a return address or not, and where the architecture does not say which, that is
told from what was decoded for the frame inside: if nothing was, it is decoded now. So the question leaves
the frames as they are, exactly if no such decoding is needed and reading the program counter and asking
the architecture need none either.
-/

namespace CallFrame

/-! Frames of which more are decoded. -/
namespace FrameChain

/-- The same frames, and what was decoded for them still is. -/
structure Retained (before after : FrameChain) : Prop where
  size : after.size = before.size
  kept (level : Nat) (result : Except Fault FrameCache) :
    before.slot? level = some (some result) → after.slot? level = some (some result)

variable {one other : FrameChain}

theorem Retained.refl (chain : FrameChain) : chain.Retained chain := ⟨rfl, fun _ _ filled => filled⟩

theorem Retained.trans {first second third : FrameChain} (early : first.Retained second)
    (late : second.Retained third) : first.Retained third :=
  ⟨late.size.trans early.size, fun level result filled => late.kept level result (early.kept level result filled)⟩

theorem ext_slots (same : ∀ level, one.slot? level = other.slot? level) : one = other := by
  obtain ⟨innermost, callers⟩ := one
  obtain ⟨innermost', callers'⟩ := other
  have first : innermost = innermost' := Option.some.inj (same 0)
  have rest : callers = callers' := List.ext_getElem? fun level => same (level + 1)
  rw [first, rest]

theorem slot_empty {chain : FrameChain} {level : Nat} (present : level < chain.size)
    (unfilled : ∀ result, chain.slot? level ≠ some (some result)) : chain.slot? level = some none := by
  rcases slot : chain.slot? level with _ | _ | result
  · exact absurd present (Nat.not_lt.mpr ((chain.slot_none level).mp slot))
  · rfl
  · exact absurd slot (unfilled result)

theorem Retained.antisymm (forth : one.Retained other) (back : other.Retained one) : one = other := by
  apply ext_slots
  intro level
  by_cases present : level < one.size
  · by_cases filled : ∃ result, one.slot? level = some (some result)
    · obtain ⟨result, filled⟩ := filled
      rw [filled, forth.kept level result filled]
    · have unfilled (result) : one.slot? level ≠ some (some result) := fun slot => filled ⟨result, slot⟩
      have unfilled' (result) : other.slot? level ≠ some (some result) :=
        fun slot => unfilled result (back.kept level result slot)
      rw [slot_empty present unfilled, slot_empty (forth.size.symm ▸ present) unfilled']
  · have absent := Nat.le_of_not_lt present
    rw [(one.slot_none level).mpr absent, (other.slot_none level).mpr (forth.size ▸ absent)]

/-- Of frames that are all decoded there is nothing more to decode. -/
theorem Retained.whole (forth : one.Retained other) (full : ∀ level < one.size, one.filled level = true) :
    other = one := by
  apply ext_slots
  intro level
  by_cases present : level < one.size
  · obtain ⟨result, slot⟩ := FrameChain.filled_iff.mp (full level present)
    rw [slot, forth.kept level result slot]
  · have absent := Nat.le_of_not_lt present
    rw [(one.slot_none level).mpr absent, (other.slot_none level).mpr (forth.size ▸ absent)]

end FrameChain

/-! Slots are filled once. -/
namespace Unwinder

variable {u : Unwinder} {known : FrameChain}

/-- The slot was empty, so nothing that was known is lost with what it is filled with. -/
theorem retained_fills : u.MayFill known.Retained := by
  intro level session empty before done after
  refine ⟨(FrameChain.size_fill _ _ level).trans after.size, fun other result filled => ?_⟩
  have inside : level < done.2.chain.size := by
    rw [after.size, ← before.size]
    exact FrameChain.slot_inside empty
  rw [FrameChain.slot_fill _ _ inside, if_neg]
  · exact after.kept other result filled
  · rintro rfl
    rw [before.kept other result filled] at empty
    cases empty

variable (shares : ∀ known : FrameChain, u.Shares known.Retained)

include shares

theorem cache_retains (level : Nat) (session : Session) :
    session.chain.Retained ((u.cache level).run.run session).2.chain :=
  cache_preserves (shares session.chain) retained_fills level session (.refl _)

end Unwinder

namespace StoppedProcess

variable {p : StoppedProcess} (asks : p.arch.AsksOnly)

include asks

theorem unwinders_retain (u : Unwinder) (member : p.Unwinders u) (known : FrameChain) :
    u.Shares known.Retained :=
  unwinders_preserve asks (fun _ _ => Unwinder.retained_fills) u member

end StoppedProcess

/-! What the question leaves behind. -/
namespace Occasion

variable (o : Occasion) (level : Nat)

/-- The frame is there and its program counter is read, but only the frame inside can tell whether it is a
return address. -/
structure NeedsInner : Prop where
  enabled : o.unwinder.arch.dwarfCfi = true
  present : o.session.chain.contains level = true
  readable : ∃ pc, o.pc level = .ok pc
  generic : o.recognized level = false
  outer : level ≠ 0

/-- The session as the collaborators leave it that are asked about the frame itself: the program counter is
read if the frame is there, and the architecture is asked if there is a program counter. -/
def consulted : Session :=
  if o.unwinder.arch.dwarfCfi && o.session.chain.contains level then
    match o.pc level with
    | .ok _ => o.afterHook level
    | .error _ => o.afterPc level
  else o.session

theorem can_unwind_leaves :
    ((o.unwinder.canUnwind level).run o.session).2 =
      ((o.unwinder.locate level).run.run o.session).2 := rfl

variable {o level}

/-- The frame inside is asked for what was decoded for it, which decodes it if nothing was. -/
theorem leaves_inner (needs : o.NeedsInner level) :
    ((o.unwinder.canUnwind level).run o.session).2 =
      ((o.unwinder.cache (level - 1)).run.run (o.consulted level)).2 := by
  obtain ⟨enabled, present, ⟨pc, readable⟩, generic, outer⟩ := needs
  obtain ⟨inner, rfl⟩ := Nat.exists_eq_succ_of_ne_zero outer
  rw [can_unwind_leaves, Unwinder.locate, locate_with_run, consulted]
  simp only [enabled, present, readable, generic, Bool.and_self, Bool.not_true, Bool.false_eq_true, ↓reduceIte]
  change ((Unwinder.interrupted (o.unwinder.cache inner)).run _).2 = _
  rw [Unwinder.interrupted, SessionM.run_bind]
  cases ((o.unwinder.cache inner).run.run (o.afterHook (inner + 1))).1 <;> rfl

theorem leaves_consulted (needless : ¬ o.NeedsInner level) :
    ((o.unwinder.canUnwind level).run o.session).2 = o.consulted level := by
  rw [can_unwind_leaves, Unwinder.locate, locate_with_run, consulted]
  cases enabled : o.unwinder.arch.dwarfCfi with
  | false => rfl
  | true =>
      cases present : o.session.chain.contains level with
      | false => rfl
      | true =>
          cases readable : o.pc level with
          | error fault => rfl
          | ok pc =>
              cases generic : o.recognized level with
              | true => rfl
              | false =>
                  have innermost : level = 0 := by
                    by_contra outer
                    exact needless ⟨enabled, present, ⟨pc, readable⟩, generic, outer⟩
                  subst innermost
                  rfl

/-- The inner frame is decoded by the question, unless it was before. -/
theorem inner_filled (needs : o.NeedsInner level)
    (empty : (o.consulted level).chain.slot? (level - 1) = some none)
    (shares : ∀ known : FrameChain, o.unwinder.Shares known.Retained) :
    let inner : Occasion := ⟨o.unwinder, (o.consulted level).withDecoding (level - 1)⟩
    ((o.unwinder.canUnwind level).run o.session).2.chain.slot? (level - 1) =
      some (some (inner.decoded (level - 1))) := by
  intro inner
  have decoding := Unwinder.decode_with_holds preserves_composes
    (Unwinder.parts_preserve (shares (o.consulted level).chain) (level - 1))
    (Unwinder.exact_preserves (shares _) Unwinder.retained_fills (level - 1)) inner.session (.refl _)
  rw [leaves_inner needs, Unwinder.cache_eq_once, Unwinder.once_run, empty]
  have inside := Nat.lt_of_lt_of_eq (FrameChain.slot_inside empty) decoding.size.symm
  exact (FrameChain.slot_fill _ _ inside _).trans (if_pos rfl)

theorem inner_known (needs : o.NeedsInner level) (result : Except Fault FrameCache)
    (known : (o.consulted level).chain.slot? (level - 1) = some (some result)) :
    ((o.unwinder.canUnwind level).run o.session).2 = o.consulted level := by
  rw [leaves_inner needs, Unwinder.cache_eq_once, Unwinder.once_run, known]

theorem consulted_preserves {P : FrameChain → Prop} (shares : o.unwinder.Shares P)
    (holds : P o.session.chain) : P (o.consulted level).chain := by
  have read : P (o.afterPc level).chain := shares.registers level _ o.session holds
  have asked : P (o.afterHook level).chain := shares.trampoline level (o.afterPc level) read
  unfold consulted
  split
  · cases o.pc level with
    | error fault => exact read
    | ok pc => exact asked
  · exact holds

end Occasion

open Occasion

/-- What it does to the session to ask whether a frame can be unwound: the collaborators are asked about
the frame itself, and then, if only the frame inside can tell whether the program counter is a return
address, that frame is asked for what was decoded for it. Let the collaborators take no frames away and
empty no slots. Then none is emptied, and all slots stay as they are exactly if the collaborators leave
them so and the frame inside is not needed, or was decoded before. If it is needed and was not, its slot is
filled with what it decodes to now. -/
theorem can_unwind_pure_exact (u : Unwinder) (session : Session) (level : Nat) :
    let o : Occasion := ⟨u, session⟩
    let after := ((u.canUnwind level).run session).2
    (¬ o.NeedsInner level → after = o.consulted level) ∧
    (o.NeedsInner level → after = ((u.cache (level - 1)).run.run (o.consulted level)).2) ∧
    ((∀ known : FrameChain, u.Shares known.Retained) →
      session.chain.Retained after.chain ∧
      (after.chain = session.chain ↔
        (o.consulted level).chain = session.chain ∧
          (o.NeedsInner level → session.chain.slot? (level - 1) ≠ some none)) ∧
      (o.NeedsInner level → (o.consulted level).chain.slot? (level - 1) = some none →
        after.chain.slot? (level - 1) = some (some
          ((⟨u, (o.consulted level).withDecoding (level - 1)⟩ : Occasion).decoded (level - 1))))) := by
  intro o after
  have apart (needless : ¬ o.NeedsInner level) : after = o.consulted level := leaves_consulted needless
  have inward (needs : o.NeedsInner level) :
      after = ((u.cache (level - 1)).run.run (o.consulted level)).2 := leaves_inner needs
  refine ⟨apart, inward, fun shares => ?_⟩
  have early : session.chain.Retained (o.consulted level).chain :=
    @consulted_preserves o level _ (shares session.chain) (.refl _)
  have late : (o.consulted level).chain.Retained after.chain := by
    by_cases needs : o.NeedsInner level
    · rw [inward needs]
      exact Unwinder.cache_retains shares (level - 1) _
    · rw [apart needs]
      exact .refl _
  refine ⟨early.trans late, ⟨fun unchanged => ?_, ?_⟩, fun needs empty => inner_filled needs empty shares⟩
  · have same : (o.consulted level).chain = session.chain := (unchanged ▸ late).antisymm early
    refine ⟨same, fun needs empty => ?_⟩
    have filled := inner_filled needs (same ▸ empty) shares
    rw [show ((o.unwinder.canUnwind level).run o.session).2.chain = session.chain from unchanged, empty] at filled
    cases filled
  · rintro ⟨same, known⟩
    by_cases needs : o.NeedsInner level
    · have present : level - 1 < session.chain.size :=
        Nat.lt_of_le_of_lt (Nat.sub_le level 1) (of_decide_eq_true needs.present)
      have filled : ∃ result, session.chain.slot? (level - 1) = some (some result) := by
        by_contra unfilled
        exact known needs (FrameChain.slot_empty present fun result slot => unfilled ⟨result, slot⟩)
      obtain ⟨result, filled⟩ := filled
      have left : after = o.consulted level := inner_known needs result (same ▸ filled)
      rw [left, same]
    · rw [apart needs, same]

theorem entered_trampoline_shares (program : List UInt8) (P : FrameChain → Prop) :
    (enteredTrampoline program).unwinder.Shares P :=
  have records (request : Request) : Preserves P (record request) := fun _ holds => holds
  Unwinder.shares_of_asks ⟨Scripted.sample_arch_asks, Scripted.byte_evaluator_asks _⟩
    (Scripted.register_holds preserves_composes records _)
    (Scripted.memory_holds preserves_composes records _)

-- Frame 0 was decoded before, so frame 1 can be asked about without filling any slot. A process answers from its
-- own frames, and if all are decoded the question leaves them as they are, too.
theorem can_unwind_pure_decoded :
    (let u := (enteredTrampoline [0x0c, 7, 16]).unwinder
    let session := u.perform (enteredTrampoline [0x0c, 7, 16]).session (.ask 0 .computeCfa)
    (∀ known : FrameChain, u.Shares known.Retained) ∧ (⟨u, session⟩ : Occasion).NeedsInner 1 ∧
      ((u.canUnwind 1).run session).1 = true ∧
      ((u.canUnwind 1).run session).2.chain = session.chain) ∧
    let p := calledProcess (({} : Machine).writeWord 0x7000 0x1020).memory
    let session := p.after [.pushCaller, .ask 1 .computeCfa]
    (∀ known : FrameChain, p.unwinder.Shares known.Retained) ∧ (⟨p.unwinder, session⟩ : Occasion).NeedsInner 1 ∧
      ((p.unwinder.canUnwind 1).run session).1 = true ∧
      ((p.unwinder.canUnwind 1).run session).2.chain = session.chain := by
  constructor
  · intro u session
    have shares := entered_trampoline_shares [0x0c, 7, 16]
    obtain ⟨-, -, exactly⟩ := can_unwind_pure_exact u session 1
    obtain ⟨-, unchanged, -⟩ := exactly fun known => shares known.Retained
    have consulted := @consulted_preserves ⟨u, session⟩ 1 _ (shares (· = session.chain)) rfl
    have needs : (⟨u, session⟩ : Occasion).NeedsInner 1 :=
      ⟨rfl, by decide +kernel, ⟨0x2000, ok_of_to_option (by decide +kernel)⟩, by decide +kernel, Nat.one_ne_zero⟩
    have filled : (session.chain.slot? 0).any (·.isSome) = true := by decide +kernel
    have known : session.chain.slot? 0 ≠ some none := by
      intro empty
      rw [empty] at filled
      cases filled
    have answer : ((u.canUnwind 1).run session).1 = true := by decide +kernel
    exact ⟨fun known => shares known.Retained, needs, answer, unchanged.mpr ⟨consulted, fun _ => known⟩⟩
  · intro p session
    have shares : ∀ known : FrameChain, p.unwinder.Shares known.Retained :=
      @StoppedProcess.unwinders_retain p amd64_linux_asks p.unwinder (.asked p.unwinder.config)
    obtain ⟨-, -, exactly⟩ := can_unwind_pure_exact p.unwinder session 1
    have needs : (⟨p.unwinder, session⟩ : Occasion).NeedsInner 1 :=
      ⟨rfl, by decide +kernel, ⟨0x1020, ok_of_to_option (by decide +kernel)⟩, by decide +kernel, Nat.one_ne_zero⟩
    have full : (List.range session.chain.size).all session.chain.filled = true := by decide +kernel
    refine ⟨shares, needs, by decide +kernel, (exactly shares).1.whole fun level inside => ?_⟩
    exact List.all_eq_true.mp full level (List.mem_range.mpr inside)

-- If nothing was decoded before, asking about frame 1 decodes frame 0.
theorem can_unwind_decodes_inner :
    let u := (enteredTrampoline [0x0c, 7, 16]).unwinder
    let session := (enteredTrampoline [0x0c, 7, 16]).session
    session.chain.filled 0 = false ∧ ((u.canUnwind 1).run session).1 = true ∧
      ((u.canUnwind 1).run session).2.chain.filled 0 = true ∧
      ((u.canUnwind 1).run session).2.decodings = [0] := by
  decide +kernel

end CallFrame
