import CallFrame.Proofs.SteadyAnswers

/-!
Nobody can tell from an answer what was decoded before. Whatever was asked about the frames of a
stopped process, and however its frames came and went, each answer about a frame is the one that frames
of which none is decoded would give; slots that are filled stay as they are; and a frame is decoded once
at most.
-/

namespace CallFrame

inductive Question where
  | canUnwind
  | computeCfa
  | rule (r : Register)
  | recoverRegister (r : Register)
  | frameId
  | frameKind
  | frameBase
  | stopReason
  | isDegraded
  | readRegister (r : Register)

def Question.Answer : Question → Type
  | .canUnwind | .isDegraded => Bool
  | .computeCfa | .readRegister _ => Except Fault UInt64
  | .rule _ => Except Fault RegisterRule
  | .recoverRegister _ => Except Fault RegisterValue
  | .frameId => Except Fault FrameId
  | .frameKind => Option FrameKind
  | .frameBase => Option FrameBase
  | .stopReason => Option StopReason

/-- What can be done with the frames of a process while it is stopped. To reset them is to begin again
with the innermost one. -/
inductive Operation where
  | ask (level : Nat) (question : Question)
  | pushCaller
  | truncate (count : Nat)
  | reset

def Operation.Keeps (level : Nat) : Operation → Prop
  | .ask .. | .pushCaller => True
  | .truncate count => level < max count 1
  | .reset => False

/-! Questions through any unwinder. -/
namespace Unwinder

section Asked

variable (u : Unwinder)

def ask (level : Nat) : (question : Question) → SessionM question.Answer
  | .canUnwind => u.canUnwind level
  | .computeCfa => (u.computeCfa level).run
  | .rule r => (u.rule level r).run
  | .recoverRegister r => (u.recoverRegister level r).run
  | .frameId => (u.frameId level).run
  | .frameKind => u.frameKind level
  | .frameBase => u.frameBase level
  | .stopReason => u.stopReason level
  | .isDegraded => u.isDegraded level
  | .readRegister r => (u.inferior.readRegister level r).run

def perform (session : Session) : Operation → Session
  | .ask level question => ((u.ask level question).run session).2
  | .pushCaller => { session with chain := session.chain.pushCaller }
  | .truncate count => { session with chain := session.chain.truncate count }
  | .reset => { session with chain := {} }

end Asked

variable {u : Unwinder}

/-- Questions come down to decoding the frame, or finding its function, and to recovering registers. -/
theorem ask_holds {holds : (α : Type) → SessionM α → Prop} (composes : Compositional holds) {level : Nat}
    (cache : holds _ (u.cache level).run) (located : holds _ (u.locate level).run)
    (recover : ∀ r, holds _ (u.recoverRegister level r).run)
    (register : ∀ r, holds _ (u.inferior.readRegister level r).run) (question : Question) :
    holds _ (u.ask level question) := by
  have canUnwind : holds _ (u.canUnwind level) := composes.bind located fun _ => composes.pure _
  have computeCfa : holds _ (u.computeCfa level).run :=
    composes.unwind_bind cache fun _ => composes.pure _
  cases question with
  | canUnwind => exact canUnwind
  | computeCfa => exact computeCfa
  | rule r => exact composes.unwind_bind cache fun _ => composes.pure _
  | recoverRegister r => exact recover r
  | frameId => exact composes.unwind_bind cache fun _ => composes.pure _
  | frameKind => exact composes.bind located fun _ => composes.pure _
  | frameBase =>
      apply composes.bind canUnwind
      intro covered
      cases covered with
      | true => exact composes.bind computeCfa fun _ => composes.pure _
      | false => exact composes.pure _
  | stopReason =>
      apply composes.bind cache
      intro found
      cases found <;> exact composes.pure _
  | isDegraded => exact composes.bind cache fun _ => composes.pure _
  | readRegister r => exact register r

theorem ask_steady {level : Nat} (reliable : u.Reliable level) (question : Question) :
    Steady u.fromScratch (level + 1) (level + 1) (u.ask level question) := by
  have deeper := Nat.le_succ level
  have same := Nat.le_refl (level + 1)
  exact ask_holds steady_composes ⟨_, cache_answers reliable⟩ (steady_mono (locate_steady reliable) same deeper)
    (recover_steady reliable)
    (fun r => steady_mono ((reliable level (Nat.le_refl level)).register r) same deeper) question

end Unwinder

namespace StoppedProcess

variable (p : StoppedProcess)

def ask (level : Nat) : (question : Question) → SessionM question.Answer
  | .canUnwind => p.unwinder.canUnwind level
  | .computeCfa => (p.unwinder.computeCfa level).run
  | .rule r => (p.unwinder.rule level r).run
  | .recoverRegister r => (p.unwinder.recoverRegister level r).run
  | .frameId => (p.unwinder.frameId level).run
  | .frameKind => p.unwinder.frameKind level
  | .frameBase => p.unwinder.frameBase level
  | .stopReason => p.unwinder.stopReason level
  | .isDegraded => p.unwinder.isDegraded level
  | .readRegister r => (p.readRegister level r).run

def perform (session : Session) : Operation → Session
  | .ask level question => ((p.ask level question).run session).2
  | .pushCaller => { session with chain := session.chain.pushCaller }
  | .truncate count => { session with chain := session.chain.truncate count }
  | .reset => { session with chain := {} }

def after (operations : List Operation) : Session := operations.foldl p.perform {}

end StoppedProcess

/-! Reading registers of a process decodes inner frames only, and is steady. -/
namespace StoppedProcess

variable {p : StoppedProcess}

theorem registers_to_eq {reach level : Nat} (within : level ≤ reach) (r : Register) :
    p.registersTo reach level r = p.readRegister level r := by
  induction reach with
  | zero =>
      cases within
      rfl
  | succ reach ih =>
      by_cases inside : level ≤ reach
      · rw [← ih inside, registersTo, if_pos inside]
      · have last : level = reach + 1 := Nat.le_antisymm within (Nat.lt_of_not_le inside)
        rw [last]
        rfl

theorem unwinder_asks (asks : p.arch.AsksOnly) : p.unwinder.AsksOnly :=
  ⟨asks, stack_evaluator_asks _⟩

def settle (p : StoppedProcess) (level : Nat) (r : Register) : RegisterValue → UnwindM UInt64
  | .unspecified => p.readRegister level r
  | value =>
    match value.known with
    | some value => return value
    | none => throw (.registerUndefined r (level + 1))

theorem read_register_succ (asks : p.arch.AsksOnly) (level : Nat) (r : Register) :
    p.readRegister (level + 1) r = p.unwinder.recoverRegister level r >>= p.settle level r := by
  have agree : AgreeTo level ⟨p.registersTo level, p.readMemory⟩ p.unwinder.inferior := by
    refine ⟨fun inner within => ?_, rfl⟩
    funext r
    exact registers_to_eq within r
  rw [← Unwinder.recover_through (unwinder_asks asks) agree r]
  unfold readRegister
  rw [registersTo, if_neg (Nat.not_succ_le_self level)]
  rfl

theorem live_steady {truth : Nat → Except Fault FrameCache} (r : Register) :
    Steady truth 0 0 (p.live r).run := by
  unfold live
  cases p.machine.register? r <;> exact steady_pure _

theorem memory_steady {truth : Nat → Except Fault FrameCache} (address : UInt64) (length : Nat) :
    Steady truth 0 0 (p.readMemory address length).run := by
  unfold readMemory
  cases p.machine.memory.read address length <;> exact steady_pure _

theorem register_steady (asks : p.arch.AsksOnly) (level : Nat) (r : Register) :
    Steady p.unwinder.fromScratch level level (p.readRegister level r).run := by
  induction level using Nat.strongRecOn generalizing r with
  | ind level ih =>
      cases level with
      | zero => exact live_steady r
      | succ level =>
          have dependable : Dependable p.unwinder.fromScratch level p.unwinder.inferior :=
            ⟨fun inner r within => ih inner (Nat.lt_succ_of_le within) r, memory_steady⟩
          rw [read_register_succ asks]
          apply steady_unwind_bind (Unwinder.recover_steady (Unwinder.reliable_of_asks (unwinder_asks asks) dependable) r)
          intro value
          have deeper := Nat.le_succ level
          cases value with
          | unspecified => exact steady_mono (ih level (Nat.lt_succ_self level) r) deeper deeper
          | same | inRegister | inMemory | computed | undefined => exact steady_pure _

theorem dependable (asks : p.arch.AsksOnly) (level : Nat) :
    Dependable p.unwinder.fromScratch level p.unwinder.inferior :=
  ⟨fun inner r _ => register_steady asks inner r, memory_steady⟩

theorem reliable (asks : p.arch.AsksOnly) (level : Nat) : p.unwinder.Reliable level :=
  Unwinder.reliable_of_asks (unwinder_asks asks) (dependable asks level)

theorem ask_eq (level : Nat) (question : Question) :
    p.ask level question = p.unwinder.ask level question := by
  cases question <;> rfl

theorem ask_steady (asks : p.arch.AsksOnly) (level : Nat) (question : Question) :
    Steady p.unwinder.fromScratch (level + 1) (level + 1) (p.ask level question) := by
  rw [ask_eq]
  exact Unwinder.ask_steady (reliable asks level) question

end StoppedProcess

/-! Frames that come and go. -/
namespace FrameChain

variable {chain : FrameChain} {level : Nat} {result : Except Fault FrameCache}

theorem slot_push_caller :
    chain.pushCaller.slot? level = some (some result) ↔ chain.slot? level = some (some result) := by
  cases level with
  | zero => rfl
  | succ level =>
      simp only [pushCaller, slot?, List.getElem?_append]
      split
      · rfl
      next outside =>
        rw [List.getElem?_eq_none (Nat.le_of_not_lt outside)]
        cases level - chain.callers.length <;> simp

theorem slot_truncate {count : Nat} :
    (chain.truncate count).slot? level =
      if level < max count 1 then chain.slot? level else none := by
  cases level with
  | zero => simp [truncate, slot?]
  | succ level =>
      simp only [truncate, slot?, List.getElem?_take]
      congr 1
      simp only [eq_iff_iff]
      omega

theorem filled_iff : chain.filled level = true ↔ ∃ result, chain.slot? level = some (some result) := by
  unfold filled
  rcases chain.slot? level with _ | _ | known <;> simp

end FrameChain

namespace Unwinder

variable {u : Unwinder} (reliable : ∀ level, u.Reliable level)

include reliable

theorem perform_sound (operation : Operation) (session : Session)
    (sound : Sound u.fromScratch session) : Sound u.fromScratch (u.perform session operation) := by
  cases operation with
  | ask level question =>
      obtain ⟨_, answered⟩ := ask_steady (reliable level) question
      exact (answered session sound).1
  | pushCaller =>
      intro level result filled
      exact sound level result (FrameChain.slot_push_caller.mp filled)
  | truncate count =>
      intro level result filled
      simp only [perform, FrameChain.slot_truncate] at filled
      split at filled
      · exact sound level result filled
      · cases filled
  | reset => exact Session.fresh_sound _ 0

theorem perform_all_sound (operations : List Operation) (session : Session)
    (sound : Sound u.fromScratch session) : Sound u.fromScratch (operations.foldl u.perform session) := by
  induction operations generalizing session with
  | nil => exact sound
  | cons operation rest ih =>
      apply ih
      exact perform_sound reliable operation session sound

end Unwinder

namespace StoppedProcess

variable {p : StoppedProcess}

theorem perform_eq : p.perform = p.unwinder.perform := by
  funext session operation
  cases operation with
  | ask level question => rw [perform, Unwinder.perform, ask_eq]
  | pushCaller | truncate | reset => rfl

theorem perform_sound (asks : p.arch.AsksOnly) (operation : Operation) (session : Session)
    (sound : Sound p.unwinder.fromScratch session) :
    Sound p.unwinder.fromScratch (p.perform session operation) := by
  rw [perform_eq]
  exact Unwinder.perform_sound (reliable asks) operation session sound

theorem after_sound (asks : p.arch.AsksOnly) (operations : List Operation) :
    Sound p.unwinder.fromScratch (p.after operations) := by
  rw [after, perform_eq]
  exact Unwinder.perform_all_sound (reliable asks) operations {} (Session.fresh_sound _ 0)

-- A decoding that is begun is paid for by the slot that it fills, as long as the slot is there.
theorem perform_decodings (asks : p.arch.AsksOnly) (level : Nat) (operation : Operation)
    (keeps : operation.Keeps level) (session : Session)
    (sound : Sound p.unwinder.fromScratch session) :
    (p.perform session operation).decodings.count level + (session.chain.filled level).toNat =
      session.decodings.count level + ((p.perform session operation).chain.filled level).toNat := by
  cases operation with
  | ask asked question =>
      obtain ⟨_, answered⟩ := ask_steady asks asked question
      exact (answered session sound).2.1.counted level
  | pushCaller =>
      have same : session.chain.pushCaller.filled level = session.chain.filled level := by
        rw [Bool.eq_iff_iff, FrameChain.filled_iff, FrameChain.filled_iff]
        exact exists_congr fun _ => FrameChain.slot_push_caller
      simp only [perform, same]
  | truncate count =>
      simp only [perform, FrameChain.filled, FrameChain.slot_truncate]
      rw [if_pos (show level < max count 1 from keeps)]
  | reset => cases keeps

theorem perform_all_decodings (asks : p.arch.AsksOnly) (level : Nat) (operations : List Operation)
    (keeps : ∀ operation ∈ operations, operation.Keeps level) (session : Session)
    (sound : Sound p.unwinder.fromScratch session) :
    (operations.foldl p.perform session).decodings.count level +
        (session.chain.filled level).toNat =
      session.decodings.count level +
        ((operations.foldl p.perform session).chain.filled level).toNat := by
  induction operations generalizing session with
  | nil => rfl
  | cons operation rest ih =>
      have first := perform_decodings asks level operation (keeps operation List.mem_cons_self)
        session sound
      have others := ih (fun other member => keeps other (List.mem_cons_of_mem operation member)) _
        (perform_sound asks operation session sound)
      rw [List.foldl_cons]
      omega

end StoppedProcess

/-- After any operations on the frames of a process whose hooks only ask the frames that they are
given: a question about a frame that is there has the answer that it would have if no frame had been
decoded; no question, about a frame that is there or not, changes a slot that is filled; and while a
frame stays it is decoded once at most, and not at all if it was decoded before. -/
theorem answers_as_if_fresh (p : StoppedProcess) (asks : p.arch.AsksOnly)
    (operations : List Operation) :
    let session := p.after operations
    (∀ level question, session.chain.contains level = true →
      ((p.ask level question).run session).1 =
        ((p.ask level question).run (Session.fresh session.chain.outermost)).1) ∧
    (∀ asked question level result, session.chain.slot? level = some (some result) →
      ((p.ask asked question).run session).2.chain.slot? level = some (some result)) ∧
    (∀ level later, (∀ operation ∈ later, operation.Keeps level) →
      (p.after (operations ++ later)).decodings.count level + (session.chain.filled level).toNat ≤
        session.decodings.count level + 1) := by
  intro session
  have sound : Sound p.unwinder.fromScratch session := StoppedProcess.after_sound asks operations
  refine ⟨?_, ?_, ?_⟩
  · intro level question present
    obtain ⟨answer, answered⟩ := StoppedProcess.ask_steady asks level question
    have enough : level < session.chain.size := of_decide_eq_true present
    rw [(answered session sound).2.2 enough]
    have fresh := Session.fresh_sound p.unwinder.fromScratch session.chain.outermost
    rw [(answered _ fresh).2.2]
    rw [Session.fresh_size]
    exact enough
  · intro asked question level result filled
    obtain ⟨_, answered⟩ := StoppedProcess.ask_steady asks asked question
    exact (answered session sound).2.1.kept level result filled
  · intro level later keeps
    have counted := StoppedProcess.perform_all_decodings asks level later keeps session sound
    rw [StoppedProcess.after, List.foldl_append]
    have once := Bool.toNat_le ((later.foldl p.perform session).chain.filled level)
    change (later.foldl p.perform session).decodings.count level + _ ≤ _
    omega

/-- A process that was stopped in a function whose return address is on top of the stack. -/
def calledProcess (memory : Memory) : StoppedProcess where
  machine := { registers := [(Amd64.rip, 0x1010), (Amd64.rsp, 0x7000)], memory }
  arch := Amd64.linux
  cfi := .ofFunctions [(sampleCie [0x0c, 7, 8, 0x90, 1], sampleFde 0x1000 [])]

-- The function was called from itself. To ask about the caller decodes both frames, and what is asked
-- later decodes none.
theorem answers_as_if_fresh_called :
    let p := calledProcess (({} : Machine).writeWord 0x7000 0x1020).memory
    let earlier : List Operation := [.pushCaller, .ask 1 .stopReason]
    let later : List Operation := [.ask 1 (.readRegister Amd64.rsp), .pushCaller, .ask 0 .frameId]
    p.arch.AsksOnly ∧ (p.after earlier).decodings = [1, 0] ∧
      (((p.ask 1 .computeCfa).run (p.after earlier)).1 : Except Fault UInt64).toOption =
        some 0x7010 ∧
      (((p.ask 1 .computeCfa).run (Session.fresh 1)).1 : Except Fault UInt64).toOption =
        some 0x7010 ∧
      (p.after (earlier ++ later)).decodings.count 1 ≤ 1 := by
  intro p earlier later
  obtain ⟨answers, -, decodings⟩ := answers_as_if_fresh p amd64_linux_asks earlier
  have begun : (p.after earlier).decodings = [1, 0] := by decide +kernel
  have filled : (p.after earlier).chain.filled 1 = true := by decide +kernel
  have asked : (((p.ask 1 .computeCfa).run (p.after earlier)).1 : Except Fault UInt64).toOption =
      some 0x7010 := by decide +kernel
  have length : (p.after earlier).chain.outermost = 1 := by decide +kernel
  refine ⟨amd64_linux_asks, begun, asked, ?_, ?_⟩
  · rw [← asked, answers 1 .computeCfa (by decide +kernel), length]
  · have once := decodings 1 later (by simp [later, Operation.Keeps])
    rw [begun, filled] at once
    exact Nat.le_of_succ_le_succ once

end CallFrame
