import CallFrame.Proofs.OpcodePolicy
import CallFrame.Proofs.PcBias

/-!
Answers that fit together. Some questions about a frame look its function up each time, others are
answered from what was decoded for it once. Where the collaborators always answer the same, the function
that is looked up is always the same, too, and it is the one that the frame was decoded with, whatever was
decoded in between. So no two answers about a frame contradict each other.
-/

namespace CallFrame

/-! Collaborators that always answer the same. -/
section Fixed

/-- The question has one answer in all sessions, and has nothing to do with the frames. -/
def FixedAnswer (question : SessionM α) : Prop :=
  ∃ answer, ∀ session, (question.run session).1 = answer ∧
    (question.run session).2.chain = session.chain ∧
    (question.run session).2.decodings = session.decodings

theorem fixed_composes : Compositional fun _ question => FixedAnswer question where
  pure value := ⟨value, fun _ => ⟨rfl, rfl, rfl⟩⟩
  bind := by
    rintro α β first follow ⟨value, fixed⟩ rest
    obtain ⟨answer, fixed'⟩ := rest value
    refine ⟨answer, fun session => ?_⟩
    obtain ⟨same, chain, decodings⟩ := fixed session
    obtain ⟨same', chain', decodings'⟩ := fixed' (first.run session).2
    rw [SessionM.run_bind, same]
    exact ⟨same', chain'.trans chain, decodings'.trans decodings⟩
  warn _ := ⟨(), fun _ => ⟨rfl, rfl, rfl⟩⟩

theorem fixed_record (request : Request) : FixedAnswer (record request) :=
  ⟨(), fun _ => ⟨rfl, rfl, rfl⟩⟩

theorem FixedAnswer.steady {question : SessionM α} (fixed : FixedAnswer question)
    (truth : Nat → Except Fault FrameCache) (room reach : Nat) : Steady truth room reach question := by
  obtain ⟨answer, fixed⟩ := fixed
  refine ⟨answer, fun session sound => ?_⟩
  obtain ⟨same, chain, decodings⟩ := fixed session
  refine ⟨?_, .of_same chain decodings, fun _ => same⟩
  intro level result filled
  rw [chain] at filled
  exact sound level result filled

namespace Unwinder

structure Fixed (u : Unwinder) : Prop where
  registers (level : Nat) (r : Register) : FixedAnswer (u.inferior.readRegister level r).run
  memory (address : UInt64) (length : Nat) : FixedAnswer (u.inferior.readMemory address length).run
  evaluator (e : Expression) (level : Nat) (initial : Option UInt64) (want : Want) :
    FixedAnswer (u.evaluator e (u.frame level) initial want).run
  trampoline (level : Nat) : FixedAnswer (u.arch.isSignalFrame (u.frame level))
  rules (level count : Nat) : FixedAnswer (u.arch.initialRules (u.frame level) count)
  functions (name : String) (level : Nat) (r : Register) :
    FixedAnswer (u.arch.functions name (u.frame level) r).run

variable {u : Unwinder}

theorem fixed_of_asks (asks : u.AsksOnly)
    (registers : ∀ level r, FixedAnswer (u.inferior.readRegister level r).run)
    (memory : ∀ address length, FixedAnswer (u.inferior.readMemory address length).run) : u.Fixed where
  registers := registers
  memory := memory
  evaluator e level initial want :=
    fixed_composes.asks (asks.evaluator e level initial want) (fun inner r _ => registers inner r) memory
  trampoline level :=
    fixed_composes.asks (asks_trampoline asks level) (fun inner r _ => registers inner r) memory
  rules level count :=
    fixed_composes.asks (asks_rules asks level count) (fun inner r _ => registers inner r) memory
  functions name level r :=
    fixed_composes.asks (asks.arch.functions name level r) (fun inner r _ => registers inner r) memory

theorem Fixed.reliable (fixed : u.Fixed) (level : Nat) : u.Reliable level := fun inner _ => {
  present := present_steady inner
  register r := (fixed.registers inner r).steady _ _ _
  memory address length := (fixed.memory address length).steady _ _ _
  evaluator e initial want := (fixed.evaluator e inner initial want).steady _ _ _
  trampoline := (fixed.trampoline inner).steady _ _ _
  rules count := (fixed.rules inner count).steady _ _ _
  functions name r := (fixed.functions name inner r).steady _ _ _ }

end Unwinder

end Fixed

/-! What the answers of a session come from. -/
namespace Unwinder

variable {u : Unwinder} {level : Nat} {session : Session} {decoded : Except Fault FrameCache}
  {located : Except Fault Located}

/-- In the session the frame decodes to the one and its function is found as the other, whichever is asked
first, and the two agree. -/
structure Stands (u : Unwinder) (level : Nat) (session : Session) (decoded : Except Fault FrameCache)
    (located : Except Fault Located) : Prop where
  found : ((u.locate level).run.run session).1 = located
  known : ((u.cache level).run.run session).1 = decoded
  still : ((u.cache level).run.run ((u.locate level).run.run session).2).1 = decoded
  kept (cache : FrameCache) : decoded = .ok cache →
    ((u.cache level).run.run session).2.chain.slot? level = some (some (.ok cache))
  agrees (cache : FrameCache) : decoded = .ok cache →
    ∃ place, located = .ok place ∧ cache.signalFrame = place.signalFrame

theorem scratch_agrees (cache : FrameCache) (decodes : u.fromScratch level = .ok cache) :
    ∃ place, afresh level (u.locate level) = .ok place ∧ cache.signalFrame = place.signalFrame := by
  obtain ⟨place, unwound, cfa, found, -, -, rfl⟩ :=
    Occasion.decoded_ok ⟨u, Session.fresh level⟩ level cache decodes
  exact ⟨place, found, rfl⟩

theorem cache_slot (reliable : u.Reliable level) (sound : Sound u.fromScratch session)
    (present : level < session.chain.size) :
    ((u.cache level).run.run session).2.chain.slot? level = some (some (u.fromScratch level)) := by
  obtain ⟨-, grows, answered⟩ := cache_answers reliable session sound
  have answered := answered present
  rw [cache_eq_once, once_run] at *
  rcases slot : session.chain.slot? level with _ | _ | known
  · exact absurd present (Nat.not_lt.mpr ((session.chain.slot_none level).mp slot))
  · simp only [slot] at answered grows ⊢
    have inside := grows.size ▸ present
    rw [FrameChain.size_fill] at inside
    rw [FrameChain.slot_fill _ _ inside, if_pos rfl, answered]
  · simp only [slot] at answered ⊢
    rw [answered]

theorem present_stands (reliable : u.Reliable level) (sound : Sound u.fromScratch session)
    (present : level < session.chain.size) :
    u.Stands level session (u.fromScratch level) (afresh level (u.locate level)) := by
  have cached := cache_answers reliable
  obtain ⟨place, answered⟩ := locate_steady reliable
  obtain ⟨between, grows, -⟩ := answered session sound
  constructor
  · exact steady_afresh ⟨place, answered⟩ sound present
  · exact (cached session sound).2.2 present
  · exact (cached _ between).2.2 (grows.size.symm ▸ present)
  · intro cache decodes
    rw [cache_slot reliable sound present, decodes]
  · exact scratch_agrees

/-- A frame that is not there is not decoded, and no function is found for it. -/
theorem absent_stands (absent : session.chain.size ≤ level) :
    ∃ fault, u.Stands level session (.error (.noFrame level)) (.error fault) := by
  have slot := (session.chain.slot_none level).mpr absent
  have missing : session.chain.contains level = false := decide_eq_false (Nat.not_lt.mpr absent)
  have unknown : (u.cache level).run.run session = (.error (.noFrame level), session) := by
    rw [cache_eq_once, once_run, slot]
  have unfound : ∃ fault, (u.locate level).run.run session = (.error fault, session) := by
    have located := Occasion.locate_with_run ⟨u, session⟩ level (u.exactPc level)
    simp only [missing, Bool.not_false, ↓reduceIte] at located
    cases enabled : u.arch.dwarfCfi with
    | false => exact ⟨_, located.trans (by rw [enabled]; rfl)⟩
    | true => exact ⟨_, located.trans (by rw [enabled]; rfl)⟩
  obtain ⟨fault, unfound⟩ := unfound
  refine ⟨fault, ?_, ?_, ?_, ?_, ?_⟩
  · rw [unfound]
  · rw [unknown]
  · rw [unfound, unknown]
  · rintro cache ⟨⟩
  · rintro cache ⟨⟩

structure Consistent (u : Unwinder) (level : Nat) (session : Session) : Prop where
  /-- A frame with an address can be unwound, and is of the kind that it was decoded as. -/
  addressed (cfa : UInt64) : ((u.computeCfa level).run.run session).1 = .ok cfa →
    ((u.canUnwind level).run session).1 = true ∧
      ∃ cache, ((u.computeCfa level).run.run session).2.chain.slot? level = some (some (.ok cache)) ∧
        cache.cfa = cfa ∧ ((u.frameKind level).run session).1 =
          some (if cache.signalFrame then .signalTrampoline else .normal)
  /-- The address is the base of all variables. -/
  base : ((u.frameBase level).run session).1 =
    ((u.computeCfa level).run.run session).1.toOption.map fun cfa => ⟨cfa, cfa, cfa⟩
  failed (fault : Fault) : ((u.stopReason level).run session).1 = some (.failed fault) ↔
    ((u.computeCfa level).run.run session).1 = .error fault
  outermost : ((u.stopReason level).run session).1 = some .outermost ↔
    ((u.frameId level).run.run session).1 = .ok .outermost
  /-- The caller is in reach just if the frame has an identity, which has the same address. -/
  inner : ((u.stopReason level).run session).1 = none ↔
    ∃ cfa function, ((u.frameId level).run.run session).1 = .ok (.frame cfa function) ∧
      ((u.computeCfa level).run.run session).1 = .ok cfa
  /-- What needs the frame decoded fails if it cannot be unwound. -/
  unreachable : ((u.canUnwind level).run session).1 = false → ∃ fault, u.Refused session level fault

theorem run_of_cache (form : FrameCache → α) :
    (u.cache level >>= fun cache => pure (form cache)).run.run session =
      (((u.cache level).run.run session).1.map form, ((u.cache level).run.run session).2) := by
  rw [UnwindM.run_bind]
  rcases (u.cache level).run.run session with ⟨fault | cache, after⟩ <;> rfl

def stopOf : Except Fault FrameCache → Option StopReason
  | .ok cache => if cache.outermost then some .outermost else none
  | .error fault => some (.failed fault)

namespace Stands

theorem computeCfa (stands : u.Stands level session decoded located) :
    ((u.computeCfa level).run.run session).1 = decoded.map (·.cfa) := by
  rw [Unwinder.computeCfa, run_of_cache, stands.known]

theorem frameId (stands : u.Stands level session decoded located) :
    ((u.frameId level).run.run session).1 = decoded.map fun cache =>
      if cache.outermost then .outermost else .frame cache.cfa cache.functionStart := by
  rw [Unwinder.frameId, run_of_cache, stands.known]

theorem stopReason (stands : u.Stands level session decoded located) :
    ((u.stopReason level).run session).1 = stopOf decoded := by
  rw [Unwinder.stopReason, SessionM.run_bind, stands.known]
  cases decoded <;> rfl

theorem canUnwind (stands : u.Stands level session decoded located) :
    ((u.canUnwind level).run session).1 = located.toOption.isSome := by
  rw [Unwinder.canUnwind, SessionM.run_bind, stands.found]
  rfl

theorem frameKind (stands : u.Stands level session decoded located) :
    ((u.frameKind level).run session).1 = located.toOption.map fun place =>
      if place.signalFrame then .signalTrampoline else .normal := by
  rw [Unwinder.frameKind, SessionM.run_bind, stands.found]
  rfl

/-- The frame address is asked for behind the question whether the frame can be unwound. -/
theorem frameBase (stands : u.Stands level session decoded located) :
    ((u.frameBase level).run session).1 =
      if located.toOption.isSome then decoded.toOption.map fun cache => ⟨cache.cfa, cache.cfa, cache.cfa⟩
      else none := by
  rw [Unwinder.frameBase, SessionM.run_bind, stands.canUnwind]
  cases located.toOption.isSome with
  | false => rfl
  | true =>
      have address : ((u.computeCfa level).run.run ((u.canUnwind level).run session).2).1 =
          decoded.map (·.cfa) := by
        rw [Unwinder.computeCfa, run_of_cache]
        exact congrArg (Except.map _) stands.still
      simp only [↓reduceIte]
      rw [SessionM.run_bind, address]
      cases decoded <;> rfl

theorem lost_consistent {fault : Fault} (stands : u.Stands level session (.error fault) located) :
    u.Consistent level session := by
  have address := stands.computeCfa
  have identity := stands.frameId
  have stops := stands.stopReason
  constructor
  · intro cfa known
    rw [address] at known
    cases known
  · rw [stands.frameBase, address]
    cases located.toOption.isSome <;> rfl
  · intro other
    rw [stops, address]
    simp [stopOf, Except.map]
  · rw [stops, identity]
    simp [stopOf, Except.map]
  · rw [stops, identity]
    simp [stopOf, Except.map]
  · intro _
    exact ⟨fault, refused_iff.mpr stands.known⟩

theorem known_consistent {cache : FrameCache} (stands : u.Stands level session (.ok cache) located) :
    u.Consistent level session := by
  have address := stands.computeCfa
  have identity := stands.frameId
  have stops := stands.stopReason
  obtain ⟨place, rfl, signal⟩ := stands.agrees cache rfl
  constructor
  · intro cfa known
    rw [address] at known
    cases known
    refine ⟨stands.canUnwind, cache, ?_, rfl, ?_⟩
    · rw [Unwinder.computeCfa, run_of_cache]
      exact stands.kept cache rfl
    · rw [stands.frameKind, signal]
      rfl
  · rw [stands.frameBase, address]
    rfl
  · intro other
    rw [stops, address]
    cases ends : cache.outermost <;> simp [stopOf, Except.map, ends]
  · rw [stops, identity]
    cases ends : cache.outermost <;> simp [stopOf, Except.map, ends]
  · rw [stops, identity, address]
    cases ends : cache.outermost <;> simp [stopOf, Except.map, ends]
  · rw [stands.canUnwind]
    rintro ⟨⟩

theorem consistent (stands : u.Stands level session decoded located) : u.Consistent level session := by
  cases decoded with
  | error fault => exact lost_consistent stands
  | ok cache => exact known_consistent stands

end Stands

end Unwinder

/-! Frames that stay. -/
namespace Unwinder

variable {u : Unwinder}

theorem perform_present {level : Nat} (operation : Operation) (keeps : operation.Keeps level)
    (reliable : ∀ level, u.Reliable level) (session : Session) (sound : Sound u.fromScratch session)
    (present : level < session.chain.size) : level < (u.perform session operation).chain.size := by
  cases operation with
  | ask asked question =>
      obtain ⟨_, answered⟩ := ask_steady (reliable asked) question
      exact Nat.lt_of_lt_of_eq present (answered session sound).2.1.size.symm
  | pushCaller =>
      simp only [perform, FrameChain.pushCaller, FrameChain.size, List.length_append] at present ⊢
      exact Nat.lt_add_right 1 present
  | truncate count =>
      have inside : level < max count 1 := keeps
      simp only [perform, FrameChain.truncate, FrameChain.size, List.length_take] at present ⊢
      omega
  | reset => cases keeps

theorem perform_all_present {level : Nat} (operations : List Operation)
    (keeps : ∀ operation ∈ operations, operation.Keeps level)
    (reliable : ∀ level, u.Reliable level) (session : Session) (sound : Sound u.fromScratch session)
    (present : level < session.chain.size) :
    level < (operations.foldl u.perform session).chain.size := by
  induction operations generalizing session with
  | nil => exact present
  | cons operation rest ih =>
      have here := keeps operation List.mem_cons_self
      exact ih (fun other member => keeps other (List.mem_cons_of_mem operation member)) _
        (perform_sound reliable operation session sound)
        (perform_present operation here reliable session sound present)

end Unwinder

/-- Let what the unwinder calls answer the same whenever it is asked, whatever was decoded before; that is
so where all of it has fixed answers, and where the inferior is a stopped process that finds registers by
unwinding. Then after any operations on the frames the answers about each frame fit together; and as long
as the frame stays they remain the same, whatever is asked in between. -/
theorem answers_consistent (u : Unwinder) (reliable : ∀ level, u.Reliable level)
    (operations : List Operation) (level : Nat) :
    let session := operations.foldl u.perform {}
    u.Consistent level session ∧
      ∀ later : List Operation, (∀ operation ∈ later, operation.Keeps level) →
        session.chain.contains level = true →
        ∀ question, ((u.ask level question).run (later.foldl u.perform session)).1 =
          ((u.ask level question).run session).1 := by
  intro session
  have sound : Sound u.fromScratch session :=
    Unwinder.perform_all_sound reliable operations {} (Session.fresh_sound _ 0)
  constructor
  · by_cases present : level < session.chain.size
    · exact (Unwinder.present_stands (reliable level) sound present).consistent
    · obtain ⟨fault, stands⟩ := @Unwinder.absent_stands u level session (Nat.le_of_not_lt present)
      exact stands.consistent
  · intro later keeps present question
    have present : level < session.chain.size := of_decide_eq_true present
    have sound' := Unwinder.perform_all_sound reliable later session sound
    have present' := Unwinder.perform_all_present later keeps reliable session sound present
    obtain ⟨answer, answered⟩ := Unwinder.ask_steady (reliable level) question
    rw [(answered _ sound').2.2 present', (answered _ sound).2.2 present]

theorem entered_trampoline_reliable (program : List UInt8) (level : Nat) :
    (enteredTrampoline program).unwinder.Reliable level :=
  (Unwinder.fixed_of_asks ⟨Scripted.sample_arch_asks, Scripted.byte_evaluator_asks _⟩
    (Scripted.register_holds fixed_composes fixed_record _)
    (Scripted.memory_holds fixed_composes fixed_record _)).reliable level

-- The frame that was interrupted is asked about before and after the trampoline is decoded.
theorem answers_consistent_interrupted :
    let u := (enteredTrampoline [0x0c, 7, 16]).unwinder
    let early := [Operation.pushCaller].foldl u.perform {}
    let late := [Operation.ask 0 .frameId, .ask 1 .canUnwind].foldl u.perform early
    (∀ level, u.Reliable level) ∧ u.Consistent 0 late ∧
      ((u.frameKind 0).run late).1 = some .signalTrampoline ∧
      ((u.canUnwind 1).run early).1 = true ∧ ((u.canUnwind 1).run late).1 = true := by
  intro u early late
  have reliable := entered_trampoline_reliable [0x0c, 7, 16]
  obtain ⟨-, same⟩ := answers_consistent u reliable [.pushCaller] 1
  obtain ⟨consistent, -⟩ := answers_consistent u reliable [.pushCaller, .ask 0 .frameId, .ask 1 .canUnwind] 0
  have asked : ((u.canUnwind 1).run early).1 = true := by decide +kernel
  have again := same [.ask 0 .frameId, .ask 1 .canUnwind] (by simp [Operation.Keeps]) rfl .canUnwind
  refine ⟨reliable, consistent, by decide +kernel, asked, ?_⟩
  rw [← asked]
  exact again

end CallFrame
