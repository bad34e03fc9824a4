import CallFrame.Proofs.CacheTransparency
import CallFrame.Scripted

/-!
Whose policy counts. A frame whose program stops at an unknown opcode is refused, or kept as far as its
program goes, by the policy of the unwinder that decodes it. Its slot belongs to the chain, and all
unwinders over the chain answer from it: those of a debugger, and those by which a process finds the
registers of outer frames. So the policy of the unwinder that comes first is in force for all the others,
and one that would refuse the frame passes on what a less strict one has left.
-/

namespace CallFrame

/-! What questions keep true of the frames. -/
section Preserves

variable {P : FrameChain → Prop}

def Preserves (P : FrameChain → Prop) (question : SessionM α) : Prop :=
  ∀ session, P session.chain → P (question.run session).2.chain

theorem preserves_pure (value : α) : Preserves P (pure value : SessionM α) := by
  intro session holds
  exact holds

theorem preserves_bind {question : SessionM α} {follow : α → SessionM β}
    (first : Preserves P question) (rest : ∀ value, Preserves P (follow value)) :
    Preserves P (question >>= follow) := by
  intro session holds
  exact rest _ _ (first session holds)

theorem preserves_composes : Compositional fun _ question => Preserves P question where
  pure := preserves_pure
  bind := preserves_bind
  warn _ _ holds := holds

end Preserves

namespace Unwinder

variable {P : FrameChain → Prop} {u : Unwinder}

/-- All that the unwinder calls keeps the property of the frames. -/
structure Shares (P : FrameChain → Prop) (u : Unwinder) : Prop where
  registers (level : Nat) (r : Register) : Preserves P (u.inferior.readRegister level r).run
  memory (address : UInt64) (length : Nat) : Preserves P (u.inferior.readMemory address length).run
  evaluator (e : Expression) (level : Nat) (initial : Option UInt64) (want : Want) :
    Preserves P (u.evaluator e (u.frame level) initial want).run
  trampoline (level : Nat) : Preserves P (u.arch.isSignalFrame (u.frame level))
  rules (level count : Nat) : Preserves P (u.arch.initialRules (u.frame level) count)
  functions (name : String) (level : Nat) (r : Register) :
    Preserves P (u.arch.functions name (u.frame level) r).run

theorem shares_of_asks (asks : u.AsksOnly)
    (registers : ∀ level r, Preserves P (u.inferior.readRegister level r).run)
    (memory : ∀ address length, Preserves P (u.inferior.readMemory address length).run) :
    u.Shares P where
  registers := registers
  memory := memory
  evaluator e level initial want :=
    preserves_composes.asks (asks.evaluator e level initial want) (fun inner r _ => registers inner r)
      memory
  trampoline level :=
    preserves_composes.asks (asks_trampoline asks level) (fun inner r _ => registers inner r) memory
  rules level count :=
    preserves_composes.asks (asks_rules asks level count) (fun inner r _ => registers inner r) memory
  functions name level r :=
    preserves_composes.asks (asks.arch.functions name level r) (fun inner r _ => registers inner r)
      memory

theorem parts_preserve (shares : u.Shares P) (level : Nat) :
    u.Parts (fun _ question => Preserves P question) level where
  present _ holds := holds
  register := shares.registers level
  memory := shares.memory
  evaluator e := shares.evaluator e level
  trampoline := shares.trampoline level
  rules := shares.rules level
  functions name := shares.functions name level

end Unwinder

section Failures

variable {m : UnwindM α} {session : Session} {fault : Fault}

theorem UnwindM.bind_error {follow : α → UnwindM β} (failed : (m.run.run session).1 = .error fault) :
    ((m >>= follow).run.run session).1 = .error fault := by
  rw [UnwindM.run_bind]
  rcases ran : m.run.run session with ⟨fault' | value, after⟩ <;> rw [ran] at failed <;> cases failed
  rfl

theorem UnwindM.value_error {form : α → β} :
    ((m >>= fun value => pure (form value)).run.run session).1 = .error fault ↔
      (m.run.run session).1 = .error fault := by
  constructor
  · intro failed
    rw [UnwindM.run_bind] at failed
    rcases ran : m.run.run session with ⟨fault' | value, after⟩ <;> rw [ran] at failed <;> cases failed
    rfl
  · exact UnwindM.bind_error

end Failures

/-! What decoding keeps true of the frames. -/
namespace Unwinder

/-- Whatever a frame is decoded to, filling its empty slot with it keeps the property. -/
def MayFill (P : FrameChain → Prop) (u : Unwinder) : Prop :=
  ∀ (level : Nat) (session : Session), session.chain.slot? level = some none → P session.chain →
    let done := (u.decode level).run.run (session.withDecoding level)
    P done.2.chain → P (done.2.chain.fill done.1 level)

variable {P : FrameChain → Prop} {u : Unwinder} (shares : u.Shares P) (fills : u.MayFill P) (level : Nat)

include shares fills

theorem cache_preserves : Preserves P (u.cache level).run := by
  have filled (level : Nat) (decides : Preserves P (u.exactPc level)) :
      Preserves P (u.cache level).run := by
    intro session holds
    rw [cache_eq_once, once_run]
    split
    · exact holds
    · exact holds
    next empty =>
      have decoding := decode_with_holds preserves_composes (parts_preserve shares level) decides
      exact fills level session empty holds (decoding (session.withDecoding level) holds)
  induction level with
  | zero => exact filled 0 (preserves_pure true)
  | succ level ih =>
      apply filled (level + 1)
      apply preserves_bind ih
      intro cache
      cases cache <;> exact preserves_pure _

theorem exact_preserves : Preserves P (u.exactPc level) := by
  cases level with
  | zero => exact preserves_pure true
  | succ level =>
      apply preserves_bind (cache_preserves shares fills level)
      intro cache
      cases cache <;> exact preserves_pure _

theorem locate_preserves : Preserves P (u.locate level).run :=
  locate_with_holds preserves_composes (parts_preserve shares level) (exact_preserves shares fills level)

theorem recover_preserves (r : Register) : Preserves P (u.recoverRegister level r).run := by
  apply preserves_composes.unwind_bind (cache_preserves shares fills level)
  intro cache
  exact apply_holds preserves_composes (parts_preserve shares level) cache r _

end Unwinder

/-! Who filled the slots. -/
section FilledBy

theorem FrameChain.slot_after_fill {chain : FrameChain} {result known : Except Fault FrameCache}
    {level other : Nat} (found : (chain.fill result level).slot? other = some (some known)) :
    other = level ∧ known = result ∨ chain.slot? other = some (some known) := by
  by_cases present : level < chain.size
  · rw [chain.slot_fill result present] at found
    split at found
    next same =>
      cases found
      exact .inl ⟨same, rfl⟩
    next => exact .inr found
  · right
    cases level with
    | zero => exact absurd (Nat.succ_pos _) present
    | succ level =>
        have outside : chain.callers.length ≤ level := by
          simpa [size] using present
        rw [fill, List.set_eq_of_length_le outside] at found
        exact found

/-- Every slot that is filled holds what one of the unwinders decoded its frame to. -/
def FilledBy (group : Unwinder → Prop) (chain : FrameChain) : Prop :=
  ∀ level result, chain.slot? level = some (some result) →
    ∃ o : Occasion, group o.unwinder ∧ o.decoded level = result

variable {group : Unwinder → Prop}

theorem filled_by_innermost : FilledBy group {} := by
  intro level result filled
  cases level <;> cases filled

theorem filled_by_push_caller {chain : FrameChain} (filled : FilledBy group chain) :
    FilledBy group chain.pushCaller := by
  intro level result found
  exact filled level result (FrameChain.slot_push_caller.mp found)

theorem filled_by_truncate {chain : FrameChain} (filled : FilledBy group chain) (count : Nat) :
    FilledBy group (chain.truncate count) := by
  intro level result found
  rw [FrameChain.slot_truncate] at found
  split at found
  · exact filled level result found
  · cases found

namespace Unwinder

variable {u : Unwinder}

theorem member_fills (member : group u) : u.MayFill (FilledBy group) := by
  intro level session _ _ done filled other result found
  rcases FrameChain.slot_after_fill found with ⟨rfl, rfl⟩ | before
  · exact ⟨⟨u, session.withDecoding other⟩, member, rfl⟩
  · exact filled other result before

end Unwinder

end FilledBy

/-! Questions through any of several unwinders. -/
namespace Unwinder

variable (u : Unwinder)

def sessionAfter (history : List (Unwinder × Operation)) : Session :=
  history.foldl (fun session step => step.1.perform session step.2) {}

/-- What a decoded frame is needed for fails with the fault. -/
structure Refused (session : Session) (level : Nat) (fault : Fault) : Prop where
  cfa : ((u.computeCfa level).run.run session).1 = .error fault
  rule (r : Register) : ((u.rule level r).run.run session).1 = .error fault
  register (r : Register) : ((u.recoverRegister level r).run.run session).1 = .error fault
  id : ((u.frameId level).run.run session).1 = .error fault

variable {u}

theorem refused_iff {session : Session} {level : Nat} {fault : Fault} :
    u.Refused session level fault ↔ ((u.cache level).run.run session).1 = .error fault := by
  constructor
  · intro refused
    exact UnwindM.value_error.mp refused.cfa
  · intro failed
    exact ⟨UnwindM.bind_error failed, fun _ => UnwindM.bind_error failed,
      fun _ => UnwindM.bind_error failed, UnwindM.bind_error failed⟩

theorem ask_preserves {P : FrameChain → Prop} (shares : u.Shares P)
    (fills : u.MayFill P) (level : Nat) (question : Question) :
    Preserves P (u.ask level question) :=
  ask_holds preserves_composes (cache_preserves shares fills level) (locate_preserves shares fills level)
    (recover_preserves shares fills level) (shares.registers level) question

variable {group : Unwinder → Prop} (member : group u) (shares : u.Shares (FilledBy group))

include member shares

theorem ask_fills (level : Nat) (question : Question) :
    Preserves (FilledBy group) (u.ask level question) :=
  ask_preserves shares (member_fills member) level question

theorem perform_fills (operation : Operation) (session : Session)
    (filled : FilledBy group session.chain) : FilledBy group (u.perform session operation).chain := by
  cases operation with
  | ask level question => exact ask_fills member shares level question session filled
  | pushCaller => exact filled_by_push_caller filled
  | truncate count => exact filled_by_truncate filled count
  | reset => exact filled_by_innermost

omit member shares in
theorem history_fills (shares : ∀ u, group u → u.Shares (FilledBy group))
    (history : List (Unwinder × Operation)) (members : ∀ step ∈ history, group step.1) :
    FilledBy group (sessionAfter history).chain := by
  have run (session : Session) (filled : FilledBy group session.chain) :
      FilledBy group (history.foldl (fun session step => step.1.perform session step.2) session).chain := by
    induction history generalizing session with
    | nil => exact filled
    | cons step rest ih =>
        have member := members step List.mem_cons_self
        apply ih (fun other within => members other (List.mem_cons_of_mem step within))
        exact perform_fills member (shares _ member) step.2 session filled
  exact run {} filled_by_innermost

end Unwinder

namespace Occasion

variable (o : Occasion) (level : Nat)

def address : Except Fault UInt64 :=
  let evaluating : UnwindM UInt64 := do
    let unwound ← o.unwinder.interpret level (← o.unwinder.locate level)
    o.unwinder.evaluateCfa level unwound.row.cfa
  (evaluating.run.run o.session).1

def StopsAt (fault : Fault) : Prop :=
  fault.kind = .unknownOpcode ∧
    ∃ unwound, o.interpreted level = .ok unwound ∧ unwound.degraded = some fault

variable {o level}

theorem refuses_stopped {fault : Fault} (config : Config) (opcode : fault.kind = .unknownOpcode) :
    config.admit (some fault) = if config.unknownOpcode = .failFrame then .error fault else .ok () := by
  unfold Config.admit Config.refuses
  simp [opcode]

theorem decoded_stopped {fault : Fault} (stops : o.StopsAt level fault) :
    o.decoded level = .error fault ↔
      o.unwinder.config.unknownOpcode = .failFrame ∨ o.address level = .error fault := by
  obtain ⟨opcode, unwound, interpreted, degraded⟩ := stops
  obtain ⟨located, after, locating, interpreted⟩ := UnwindM.bind_ok interpreted
  rw [UnwindM.run_lift] at interpreted
  have interpreted := Except.ok.inj interpreted
  unfold decoded address Unwinder.decode Unwinder.decodeWith
  change ((o.unwinder.locate level >>= _).run.run o.session).1 = _ ↔ _
  simp only [UnwindM.run_bind, locating, UnwindM.run_lift, UnwindM.run_except, interpreted, degraded]
  rw [refuses_stopped _ opcode]
  by_cases strict : o.unwinder.config.unknownOpcode = .failFrame
  · simp only [strict, ↓reduceIte, true_or]
  · simp only [strict, ↓reduceIte, false_or]
    rw [← UnwindM.run_bind]
    exact UnwindM.value_error

end Occasion

namespace StoppedProcess

/-- The unwinders over the frames of a process: those that a debugger asks, whatever their configuration,
and those that find the registers of outer frames. -/
inductive Unwinders (p : StoppedProcess) : Unwinder → Prop
  | asked (config : Config) : p.Unwinders { p.unwinder with config }
  | inner (reach : Nat) : p.Unwinders (p.unwinderOver (p.registersTo reach))

variable {p : StoppedProcess} {P : FrameChain → Prop} (asks : p.arch.AsksOnly)

theorem memory_preserves (address : UInt64) (length : Nat) : Preserves P (p.readMemory address length).run := by
  unfold readMemory
  cases p.machine.memory.read address length <;> exact preserves_pure _

include asks

-- The registers of a frame are found by an unwinder of the process for the frame inside it.
theorem registers_preserve (fills : ∀ reach, (p.unwinderOver (p.registersTo reach)).MayFill P)
    (reach level : Nat) (r : Register) : Preserves P (p.registersTo reach level r).run := by
  induction reach generalizing level r with
  | zero =>
      simp only [registersTo, live]
      cases p.machine.register? r <;> exact preserves_pure _
  | succ reach ih =>
      by_cases inside : level ≤ reach
      · rw [registersTo, if_pos inside]
        exact ih level r
      · rw [registersTo, if_neg inside]
        have shares : (p.unwinderOver (p.registersTo reach)).Shares P :=
          Unwinder.shares_of_asks ⟨asks, stack_evaluator_asks _⟩ ih memory_preserves
        apply preserves_composes.unwind_bind (Unwinder.recover_preserves shares (fills reach) reach r)
        intro value
        cases value with
        | unspecified => exact ih reach r
        | same | inRegister | inMemory | computed | undefined => exact preserves_pure _

/-- All unwinders over the frames keep what filling empty slots keeps. -/
theorem unwinders_preserve (fills : ∀ u, p.Unwinders u → u.MayFill P) (u : Unwinder)
    (member : p.Unwinders u) : u.Shares P := by
  have evaluates := stack_evaluator_asks p.arch.toTarget
  have registers := registers_preserve asks fun reach => fills _ (.inner reach)
  cases member with
  | asked config =>
      exact Unwinder.shares_of_asks ⟨asks, evaluates⟩ (fun level => registers level level)
        memory_preserves
  | inner reach => exact Unwinder.shares_of_asks ⟨asks, evaluates⟩ (registers reach) memory_preserves

theorem unwinders_share (u : Unwinder) (member : p.Unwinders u) :
    u.Shares (FilledBy p.Unwinders) :=
  unwinders_preserve asks (fun _ => Unwinder.member_fills) u member

end StoppedProcess

/-- Several unwinders share the frames, and what they call fills slots through these unwinders only.
After any history of operations through them, the slot of a frame holds what one of them decoded it to, or
is empty and is filled by the one that asks. If the programs of the frame stopped at an unknown opcode
when it was decoded, then all questions that need it decoded fail with this fault exactly if the policy of
the unwinder that decoded it says so, whatever the policy of the one that asks; or if the fault came up
once more for the frame address. -/
theorem decoder_policy_decides (group : Unwinder → Prop)
    (shares : ∀ u, group u → u.Shares (FilledBy group)) (history : List (Unwinder × Operation))
    (members : ∀ step ∈ history, group step.1) (u : Unwinder) (member : group u) (level : Nat)
    (present : (Unwinder.sessionAfter history).chain.contains level = true) :
    let session := Unwinder.sessionAfter history
    (∃ o : Occasion, group o.unwinder ∧ o.Fills level u session) ∧
    ∀ (o : Occasion) (fault : Fault), o.Fills level u session → o.StopsAt level fault →
      (u.Refused session level fault ↔
        o.unwinder.config.unknownOpcode = .failFrame ∨ o.address level = .error fault) := by
  intro session
  constructor
  · have filled : FilledBy group session.chain := Unwinder.history_fills shares history members
    have inside : level < session.chain.size := of_decide_eq_true present
    cases slot : session.chain.slot? level with
    | none => exact absurd inside (Nat.not_lt.mpr ((session.chain.slot_none level).mp slot))
    | some content =>
        cases content with
        | none =>
            refine ⟨⟨u, session.withDecoding level⟩, member, ?_⟩
            rw [Occasion.Fills, slot]
        | some known =>
            obtain ⟨o, decoder, decoded⟩ := filled level known slot
            refine ⟨o, decoder, ?_⟩
            rw [Occasion.Fills, slot]
            exact decoded
  · intro o fault fills stops
    rw [Unwinder.refused_iff, o.cache_decoded level u session fills]
    exact Occasion.decoded_stopped stops

def StoppedProcess.unwinderWith (p : StoppedProcess) (policy : UnknownOpcodePolicy) : Unwinder :=
  { p.unwinder with config := { unknownOpcode := policy } }

def puzzlingProcess : StoppedProcess where
  machine := { registers := [(Amd64.rip, 0x1010), (Amd64.rsp, 0x7000)] }
  arch := Amd64.linux
  cfi := .ofFunctions [(sampleCie [0x0c, 7, 16], sampleFde 0x1000 [0x90, 1, 0x3f])]

theorem stops_of_degraded {o : Occasion} {level : Nat} {fault : Fault}
    (opcode : fault.kind = .unknownOpcode)
    (degraded : (o.interpreted level).toOption.bind (·.degraded) = some fault) : o.StopsAt level fault := by
  refine ⟨opcode, ?_⟩
  cases interpreted : o.interpreted level with
  | error other =>
      rw [interpreted] at degraded
      cases degraded
  | ok unwound =>
      rw [interpreted] at degraded
      exact ⟨unwound, rfl, degraded⟩

theorem innermost_decoded (u : Unwinder) :
    (u.perform {} (.ask 0 .computeCfa)).chain.slot? 0 =
      some (some ((⟨u, ({} : Session).withDecoding 0⟩ : Occasion).decoded 0)) := by
  change ((u.computeCfa 0).run.run {}).2.chain.slot? 0 = _
  rw [Unwinder.computeCfa, UnwindM.run_bind, Unwinder.cache_eq_once, Unwinder.once_run]
  dsimp only [FrameChain.slot?]
  rcases decoded : (u.decode 0).run.run (({} : Session).withDecoding 0) with ⟨fault | cache, after⟩ <;>
    exact congrArg (some ∘ some) (congrArg Prod.fst decoded).symm

-- The strict unwinder comes first, and a lenient one cannot undo its refusal.
theorem refused_for_lenient :
    let strict := puzzlingProcess.unwinderWith .failFrame
    let lenient := puzzlingProcess.unwinderWith .bestEffort
    let history : List (Unwinder × Operation) := [(strict, .ask 0 .computeCfa), (lenient, .pushCaller)]
    let session := Unwinder.sessionAfter history
    puzzlingProcess.arch.AsksOnly ∧ (∀ step ∈ history, puzzlingProcess.Unwinders step.1) ∧
      session.chain.contains 0 = true ∧ (∃ o : Occasion, o.Fills 0 lenient session) ∧
      lenient.Refused session 0 (.unknownOpcode 0x3f 0x32) := by
  intro strict lenient history session
  have members : ∀ step ∈ history, puzzlingProcess.Unwinders step.1 := by
    intro step member
    simp only [history, List.mem_cons, List.not_mem_nil, or_false] at member
    rcases member with rfl | rfl <;> exact .asked _
  have present : session.chain.contains 0 = true := by decide +kernel
  obtain ⟨⟨decoder, -, fills⟩, decides⟩ := decoder_policy_decides puzzlingProcess.Unwinders
    (StoppedProcess.unwinders_share amd64_linux_asks) history members lenient (.asked _) 0 present
  let first : Occasion := ⟨strict, ({} : Session).withDecoding 0⟩
  have filled : session.chain.slot? 0 = some (some (first.decoded 0)) :=
    FrameChain.slot_push_caller.mpr (innermost_decoded strict)
  have stops : first.StopsAt 0 (.unknownOpcode 0x3f 0x32) :=
    stops_of_degraded rfl (by decide +kernel)
  refine ⟨amd64_linux_asks, members, present, ⟨decoder, fills⟩, (decides first _ ?_ stops).mpr (.inl rfl)⟩
  rw [Occasion.Fills, filled]

-- The other way about the strict unwinder answers, though it would refuse the frame if it came first.
theorem answered_for_strict :
    let strict := puzzlingProcess.unwinderWith .failFrame
    let lenient := puzzlingProcess.unwinderWith .bestEffort
    let session := Unwinder.sessionAfter [(lenient, .ask 0 .computeCfa)]
    (⟨strict, session⟩ : Occasion).StopsAt 0 (.unknownOpcode 0x3f 0x32) ∧
      strict.Refused {} 0 (.unknownOpcode 0x3f 0x32) ∧
      ((strict.computeCfa 0).run.run session).1 = .ok 0x7010 ∧
      ((strict.rule 0 Amd64.rip).run.run session).1 = .ok (.savedAtOffset (-8)) ∧
      ((strict.recoverRegister 0 Amd64.rsp).run.run session).1 = .ok (.computed 0x7010) ∧
      ((strict.frameId 0).run.run session).1 = .ok (.frame 0x7010 0x1000) := by
  intro strict lenient session
  let first : Occasion := ⟨strict, ({} : Session).withDecoding 0⟩
  have begun : first.StopsAt 0 (.unknownOpcode 0x3f 0x32) :=
    stops_of_degraded rfl (by decide +kernel)
  refine ⟨stops_of_degraded rfl (by decide +kernel), ?_, ok_of_to_option (by decide +kernel),
    ok_of_to_option (by decide +kernel), ok_of_to_option (by decide +kernel),
    ok_of_to_option (by decide +kernel)⟩
  rw [Unwinder.refused_iff, first.cache_decoded 0 strict {} rfl]
  exact (Occasion.decoded_stopped begun).mpr (.inl rfl)

end CallFrame
