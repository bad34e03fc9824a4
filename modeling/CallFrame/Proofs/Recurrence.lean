import CallFrame.Proofs.RegisterFlow
import Mathlib.Data.Finite.Prod
import Mathlib.Data.Fintype.Option
import Mathlib.Data.Fintype.Pigeonhole

/-!
Backtraces that do not end. What a frame's callers look like depends on the registers of the frame, as far
as they can be read, on whether its program counter is exact, and on nothing else. There are finitely many
of these moments. So a backtrace ends, or it comes to a frame at the same moment as a frame further in, and
then it goes through the frames between the two again and again.
-/

namespace CallFrame

namespace StoppedProcess

/-! What is asked of two frames, and comes to the same for both. -/
section Echoes

structure Ready (p : StoppedProcess) (level : Nat) (session : Session) : Prop where
  sound : Sound p.unwinder.fromScratch session
  present : level < session.chain.size

/-- The answers about the one frame and about the other are related. -/
def Echoes (p : StoppedProcess) (inner outer : Nat) (related : α → β → Prop) (one : SessionM α)
    (other : SessionM β) : Prop :=
  ∀ session session', p.Ready inner session → p.Ready outer session' →
    related (one.run session).1 (other.run session').1 ∧
      p.Ready inner (one.run session).2 ∧ p.Ready outer (other.run session').2

/-- Both have the same value, or both fail, each for its own reason. -/
def SameUpToFault (one other : Except Fault α) : Prop := one.toOption = other.toOption

theorem same_up_to_fault_cases {one other : Except Fault α} (alike : SameUpToFault one other) :
    (∃ value, one = .ok value ∧ other = .ok value) ∨
      ∃ fault fault', one = .error fault ∧ other = .error fault' := by
  cases one with
  | error fault =>
      cases other with
      | error fault' => exact .inr ⟨fault, fault', rfl, rfl⟩
      | ok value' => cases alike
  | ok value =>
      cases other with
      | error fault' => cases alike
      | ok value' =>
          cases alike
          exact .inl ⟨value, rfl, rfl⟩

variable {p : StoppedProcess} {inner outer : Nat} {related : α → β → Prop}

theorem echoes_pure {one : α} {other : β} (same : related one other) :
    p.Echoes inner outer related (pure one) (pure other) :=
  fun _ _ ready ready' => ⟨same, ready, ready'⟩

theorem echoes_bind {conclude : γ → δ → Prop} {one : SessionM α} {other : SessionM β}
    {follow : α → SessionM γ} {follow' : β → SessionM δ}
    (first : p.Echoes inner outer related one other)
    (rest : ∀ value value', related value value' →
      p.Echoes inner outer conclude (follow value) (follow' value')) :
    p.Echoes inner outer conclude (one >>= follow) (other >>= follow') := by
  intro session session' ready ready'
  obtain ⟨answers, after, after'⟩ := first session session' ready ready'
  exact rest _ _ answers _ _ after after'

theorem echoes_same {one : SessionM α} {other : SessionM α} {follow follow' : α → SessionM β}
    (first : p.Echoes inner outer Eq one other)
    (rest : ∀ value, p.Echoes inner outer Eq (follow value) (follow' value)) :
    p.Echoes inner outer Eq (one >>= follow) (other >>= follow') := by
  apply echoes_bind first
  rintro value _ rfl
  exact rest value

theorem echoes_unwind_bind {one other : UnwindM α} {follow follow' : α → UnwindM β}
    (first : p.Echoes inner outer SameUpToFault one.run other.run)
    (rest : ∀ value, p.Echoes inner outer SameUpToFault (follow value).run (follow' value).run) :
    p.Echoes inner outer SameUpToFault (one >>= follow).run (other >>= follow').run := by
  change p.Echoes inner outer SameUpToFault (one.run >>= ExceptT.bindCont follow)
    (other.run >>= ExceptT.bindCont follow')
  apply echoes_bind first
  intro outcome outcome' alike
  obtain ⟨value, rfl, rfl⟩ | ⟨fault, fault', rfl, rfl⟩ := same_up_to_fault_cases alike
  · exact rest value
  · exact echoes_pure rfl

theorem echoes_lift {one other : SessionM α} (same : p.Echoes inner outer Eq one other) :
    p.Echoes inner outer SameUpToFault (liftM one : UnwindM α).run (liftM other : UnwindM α).run := by
  have lifted : p.Echoes inner outer SameUpToFault
      (one >>= fun value => pure (Except.ok value : Except Fault α))
      (other >>= fun value => pure (Except.ok value)) := by
    apply echoes_bind same
    rintro value _ rfl
    exact echoes_pure rfl
  exact lifted

theorem echoes_except (result : Except Fault α) :
    p.Echoes inner outer SameUpToFault (liftM result : UnwindM α).run
      (liftM result : UnwindM α).run := by
  cases result <;> exact echoes_pure rfl

-- A frame that is there answers what is steady as it does in a session of its own, and stays there.
theorem steady_ready {level reach : Nat} {question : SessionM α} {session : Session}
    (steady : Steady p.unwinder.fromScratch (level + 1) reach question) (ready : p.Ready level session) :
    (question.run session).1 = (question.run (Session.fresh level)).1 ∧
      p.Ready level (question.run session).2 := by
  obtain ⟨answer, answered⟩ := steady
  obtain ⟨after, grows, answers⟩ := answered session ready.sound
  have room := Nat.le_of_eq (Session.fresh_size level).symm
  have own := (answered _ (Session.fresh_sound _ level)).2.2 room
  exact ⟨(answers ready.present).trans own.symm, ⟨after, grows.size.symm ▸ ready.present⟩⟩

/-- What is steady for both frames is related if it is from scratch. -/
theorem echoes_steady {reach reach' : Nat} {one : SessionM α} {other : SessionM β}
    (steady : Steady p.unwinder.fromScratch (inner + 1) reach one)
    (steady' : Steady p.unwinder.fromScratch (outer + 1) reach' other)
    (same : related (one.run (Session.fresh inner)).1 (other.run (Session.fresh outer)).1) :
    p.Echoes inner outer related one other := by
  intro session session' ready ready'
  obtain ⟨own, after⟩ := steady_ready steady ready
  obtain ⟨own', after'⟩ := steady_ready steady' ready'
  rw [own, own']
  exact ⟨same, after, after'⟩

/-- What is steady without any frame is the same for both. -/
theorem echoes_constant {alike : α → α → Prop} {question : SessionM α}
    (steady : Steady p.unwinder.fromScratch 0 0 question) (same : ∀ answer, alike answer answer) :
    p.Echoes inner outer alike question question := by
  obtain ⟨answer, answered⟩ := steady
  have fresh (level : Nat) : (question.run (Session.fresh level)).1 = answer :=
    (answered _ (Session.fresh_sound _ level)).2.2 (Nat.zero_le _)
  have roomier (level : Nat) : Steady p.unwinder.fromScratch (level + 1) level question :=
    steady_mono ⟨answer, answered⟩ (Nat.zero_le _) (Nat.zero_le _)
  apply echoes_steady (roomier inner) (roomier outer)
  rw [fresh, fresh]
  exact same answer

end Echoes

/-! Frames at the same moment. -/
section Moments

/-- All that the callers of a frame depend on. -/
structure Moment where
  registers : Register → Option UInt64
  exact : Bool

def moment (p : StoppedProcess) (level : Nat) : Moment where
  registers r := (afresh level (p.readRegister level r)).toOption
  exact := ((p.unwinder.exactPc level).run (Session.fresh level)).1

variable {p : StoppedProcess} (linux : p.arch = Amd64.linux) {inner outer : Nat}
  (same : p.moment inner = p.moment outer)

include linux same

theorem register_echoes (r : Register) :
    p.Echoes inner outer SameUpToFault (p.readRegister inner r).run (p.readRegister outer r).run := by
  have asks := linux_asks linux
  apply echoes_steady
  · exact steady_mono (register_steady asks inner r) (Nat.le_succ inner) (Nat.le_refl inner)
  · exact steady_mono (register_steady asks outer r) (Nat.le_succ outer) (Nat.le_refl outer)
  · exact congrFun (congrArg Moment.registers same) r

theorem exact_echoes :
    p.Echoes inner outer Eq (p.unwinder.exactPc inner) (p.unwinder.exactPc outer) := by
  have asks := linux_asks linux
  apply echoes_steady
  · exact steady_mono (Unwinder.exact_steady (reliable asks inner))
      (Nat.le_succ inner) (Nat.le_refl inner)
  · exact steady_mono (Unwinder.exact_steady (reliable asks outer))
      (Nat.le_succ outer) (Nat.le_refl outer)
  · exact congrArg Moment.exact same

omit linux same in
theorem memory_echoes (address : UInt64) (length : Nat) :
    p.Echoes inner outer Eq (p.readMemory address length).run (p.readMemory address length).run :=
  echoes_constant (memory_steady address length) fun _ => rfl

omit same in
theorem address_echoes (address : UInt64) :
    p.Echoes inner outer SameUpToFault ((p.unwinder.frame inner).readAddress address).run
      ((p.unwinder.frame outer).readAddress address).run :=
  echoes_constant (asks_steady (asks_address address) (dependable (linux_asks linux) 0)) fun _ => rfl

theorem trampoline_echoes :
    p.Echoes inner outer Eq (p.unwinder.arch.isSignalFrame (p.unwinder.frame inner))
      (p.unwinder.arch.isSignalFrame (p.unwinder.frame outer)) := by
  have hook : p.unwinder.arch.signalFrame = some Amd64.isSignalReturn :=
    congrArg (·.signalFrame) linux
  have code (address : UInt64) : p.Echoes inner outer Eq
      (Amd64.hasSignalReturn (p.unwinder.frame inner) address)
      (Amd64.hasSignalReturn (p.unwinder.frame outer) address) := by
    apply echoes_same (memory_echoes address _)
    intro code
    cases code <;> exact echoes_pure rfl
  simp only [Arch.isSignalFrame, hook, Amd64.isSignalReturn]
  apply echoes_bind (register_echoes linux same _)
  intro answer answer' alike
  obtain ⟨pc, rfl, rfl⟩ | ⟨fault, fault', rfl, rfl⟩ := same_up_to_fault_cases alike
  · apply echoes_same (code pc)
    intro here
    split
    · exact echoes_pure rfl
    split
    · exact echoes_pure rfl
    · exact code _
  · exact echoes_pure rfl

omit same in
theorem rules_echo (count : Nat) :
    p.Echoes inner outer Eq (p.unwinder.arch.initialRules (p.unwinder.frame inner) count)
      (p.unwinder.arch.initialRules (p.unwinder.frame outer) count) := by
  have usual : p.unwinder.arch.initReg = some usualInitReg := congrArg (·.initReg) linux
  have same : p.unwinder.arch.initialRules (p.unwinder.frame outer) count =
      p.unwinder.arch.initialRules (p.unwinder.frame inner) count := by
    simp only [Arch.initialRules, usual]
    rfl
  obtain ⟨rules, known, -⟩ := usual_initial_rules p.unwinder.arch usual (p.unwinder.frame inner) count
  rw [same, known]
  exact echoes_pure rfl

theorem locate_echoes :
    p.Echoes inner outer SameUpToFault (p.unwinder.locate inner).run (p.unwinder.locate outer).run := by
  have found (level : Nat) (session : Session) (ready : p.Ready level session) :
      (p.unwinder.locate level).run.run session = (do
        let pc ← (p.unwinder.frame level).pc
        let recognized ← p.unwinder.arch.isSignalFrame (p.unwinder.frame level)
        let isExact ← (if recognized then pure true else p.unwinder.exactPc level : SessionM Bool)
        p.unwinder.functionAt recognized (if isExact then pc else pc - 1) :
          UnwindM Located).run.run session := by
    have known : p.unwinder.arch.dwarfCfi = true := congrArg (·.dwarfCfi) linux
    have present : session.chain.contains level = true := decide_eq_true ready.present
    rw [Unwinder.locate, Unwinder.locateWith, known]
    simp only [Bool.not_true, Bool.false_eq_true, ↓reduceIte]
    rw [UnwindM.run_bind, UnwindM.run_get]
    simp only [present, Bool.not_true, Bool.false_eq_true, ↓reduceIte]
  intro session session' ready ready'
  rw [found inner session ready, found outer session' ready']
  refine echoes_unwind_bind (register_echoes linux same _) (fun pc => ?_) session session' ready ready'
  apply echoes_unwind_bind (echoes_lift (trampoline_echoes linux same))
  intro recognized
  apply echoes_unwind_bind
  · apply echoes_lift
    cases recognized with
    | true => exact echoes_pure rfl
    | false => exact exact_echoes linux same
  · intro isExact
    exact echoes_except _

omit same in
theorem interpret_echoes (located : Located) :
    p.Echoes inner outer Eq (p.unwinder.interpret inner located)
      (p.unwinder.interpret outer located) := by
  apply echoes_same (rules_echo linux _)
  intro rules session session' ready ready'
  exact ⟨rfl, ⟨ready.sound, ready.present⟩, ⟨ready'.sound, ready'.present⟩⟩

theorem evaluate_echoes (e : Expression) (initial : Option UInt64) (want : Want) :
    p.Echoes inner outer SameUpToFault (p.unwinder.evaluator e (p.unwinder.frame inner) initial want).run
      (p.unwinder.evaluator e (p.unwinder.frame outer) initial want).run := by
  change p.Echoes inner outer SameUpToFault
    (StackEvaluator.evaluateFrom (p.unwinder.frame inner) e.code.length e.code initial.toList).run
    (StackEvaluator.evaluateFrom (p.unwinder.frame outer) e.code.length e.code initial.toList).run
  generalize e.code.length = fuel
  generalize e.code = code
  generalize initial.toList = stack
  induction fuel generalizing code stack with
  | zero =>
      cases code with
      | nil => cases stack <;> exact echoes_pure rfl
      | cons => exact echoes_pure rfl
  | succ fuel ih =>
      cases code with
      | nil => cases stack <;> exact echoes_pure rfl
      | cons opcode operands =>
          unfold StackEvaluator.evaluateFrom
          by_cases literal : 0x30 ≤ opcode ∧ opcode ≤ 0x4f
          · simp only [if_pos literal]
            exact ih _ _
          simp only [if_neg literal]
          by_cases based : 0x70 ≤ opcode ∧ opcode ≤ 0x8f
          · simp only [if_pos based]
            apply echoes_unwind_bind (register_echoes linux same _)
            intro base
            cases Leb128.lenient true operands with
            | none => exact echoes_pure rfl
            | some operand => exact ih _ _
          simp only [if_neg based]
          by_cases adds : opcode = 0x23
          · simp only [if_pos adds]
            cases Leb128.lenient false operands with
            | none => exact echoes_pure rfl
            | some operand =>
                cases stack with
                | nil => exact echoes_pure rfl
                | cons top below => exact ih _ _
          simp only [if_neg adds]
          by_cases loads : opcode = 0x06
          · simp only [if_pos loads]
            cases stack with
            | nil => exact echoes_pure rfl
            | cons address below =>
                apply echoes_unwind_bind (address_echoes linux address)
                intro value
                exact ih _ _
          · simp only [if_neg loads]
            exact echoes_pure rfl

theorem cfa_echoes (rule : Option CfaRule) :
    p.Echoes inner outer SameUpToFault (p.unwinder.evaluateCfa inner rule).run
      (p.unwinder.evaluateCfa outer rule).run := by
  cases rule with
  | none => exact echoes_pure rfl
  | some rule =>
      cases rule with
      | registerAndOffset r offset =>
          exact echoes_unwind_bind (register_echoes linux same r) fun _ => echoes_pure rfl
      | expression e => exact evaluate_echoes linux same e none .address

theorem decode_echoes :
    p.Echoes inner outer SameUpToFault (p.unwinder.decode inner).run (p.unwinder.decode outer).run := by
  apply echoes_unwind_bind (locate_echoes linux same)
  intro located
  apply echoes_unwind_bind (echoes_lift (interpret_echoes linux located))
  intro unwound
  apply echoes_unwind_bind (echoes_except _)
  intro _
  apply echoes_unwind_bind (cfa_echoes linux same _)
  intro cfa
  exact echoes_pure rfl

theorem direct_echoes (cache : FrameCache) (r : Register) (rule : RegisterRule) :
    p.Echoes inner outer SameUpToFault (p.unwinder.applyDirect cache inner r rule).run
      (p.unwinder.applyDirect cache outer r rule).run := by
  have register := register_echoes linux same
  cases rule with
  | sameValue => exact echoes_unwind_bind (register r) fun _ => echoes_pure rfl
  | savedInRegister source => exact echoes_unwind_bind (register source) fun _ => echoes_pure rfl
  | savedAtOffset offset =>
      exact echoes_unwind_bind (address_echoes linux _) fun _ => echoes_pure rfl
  | savedByExpression e =>
      apply echoes_unwind_bind (evaluate_echoes linux same e _ .address)
      intro address
      exact echoes_unwind_bind (address_echoes linux address) fun _ => echoes_pure rfl
  | savedValueByExpression e =>
      exact echoes_unwind_bind (evaluate_echoes linux same e _ .value) fun _ => echoes_pure rfl
  | callFunction name =>
      have silent : p.unwinder.arch.functions = Amd64.linux.functions := congrArg (·.functions) linux
      simp only [Unwinder.applyDirect, silent]
      exact echoes_pure rfl
  | unspecified | undefined | savedValueAtOffset | returnAddress | returnAddressAtOffset
  | cfaValue | cfaValueAtOffset => exact echoes_pure rfl

theorem apply_echoes (cache : FrameCache) (r : Register) (rule : RegisterRule) :
    p.Echoes inner outer SameUpToFault (p.unwinder.apply cache inner r rule).run
      (p.unwinder.apply cache outer r rule).run := by
  cases rule with
  | returnAddress => exact direct_echoes linux same cache _ _
  | returnAddressAtOffset offset =>
      apply echoes_unwind_bind (direct_echoes linux same cache cache.returnColumn cache.returnRule)
      intro value
      cases value.known <;> exact echoes_pure rfl
  | unspecified | undefined | sameValue | savedAtOffset | savedInRegister | savedByExpression
  | savedValueAtOffset | savedValueByExpression | callFunction | cfaValue | cfaValueAtOffset =>
      simp only [Unwinder.apply]
      exact direct_echoes linux same cache r _

theorem settle_echoes (r : Register) (value : RegisterValue) :
    p.Echoes inner outer SameUpToFault (p.settle inner r value).run (p.settle outer r value).run := by
  cases value with
  | unspecified => exact register_echoes linux same r
  | same | inRegister | inMemory | computed | undefined => exact echoes_pure rfl

end Moments

/-! The callers of frames at the same moment. -/
section Callers

variable {p : StoppedProcess} (linux : p.arch = Amd64.linux) {inner outer : Nat}
  (same : p.moment inner = p.moment outer)

theorem fresh_ready {level frames : Nat} (inside : level ≤ frames) :
    p.Ready level (Session.fresh frames) where
  sound := Session.fresh_sound _ frames
  present := by
    rw [Session.fresh_size]
    omega

include linux same

theorem from_scratch_alike : SameUpToFault (p.unwinder.fromScratch inner) (p.unwinder.fromScratch outer) :=
  (decode_echoes linux same _ _ (fresh_ready (Nat.le_refl inner)) (fresh_ready (Nat.le_refl outer))).1

theorem cache_echoes :
    p.Echoes inner outer SameUpToFault (p.unwinder.cache inner).run (p.unwinder.cache outer).run := by
  have known := reliable (linux_asks linux)
  apply echoes_steady ⟨_, Unwinder.cache_answers (known inner)⟩ ⟨_, Unwinder.cache_answers (known outer)⟩
  change SameUpToFault (afresh inner (p.unwinder.cache inner)) (afresh outer (p.unwinder.cache outer))
  rw [Unwinder.cache_afresh (known inner), Unwinder.cache_afresh (known outer)]
  exact from_scratch_alike linux same

theorem caller_echoes (r : Register) :
    p.Echoes inner outer SameUpToFault (p.readRegister (inner + 1) r).run
      (p.readRegister (outer + 1) r).run := by
  have asks := linux_asks linux
  rw [read_register_succ asks, read_register_succ asks]
  apply echoes_unwind_bind
  · apply echoes_unwind_bind (cache_echoes linux same)
    intro cache
    exact apply_echoes linux same cache r _
  · exact settle_echoes linux same r

/-- The callers of two frames at the same moment are at the same moment, too. -/
theorem moment_succ : p.moment (inner + 1) = p.moment (outer + 1) := by
  have ready (level : Nat) : p.Ready level (Session.fresh (level + 1)) := fresh_ready (Nat.le_succ level)
  have registers : (p.moment (inner + 1)).registers = (p.moment (outer + 1)).registers := by
    funext r
    exact (caller_echoes linux same r _ _ (ready inner) (ready outer)).1
  have interrupted : p.Echoes inner outer Eq (Unwinder.interrupted (p.unwinder.cache inner))
      (Unwinder.interrupted (p.unwinder.cache outer)) := by
    apply echoes_bind (cache_echoes linux same)
    intro answer answer' alike
    obtain ⟨cache, rfl, rfl⟩ | ⟨fault, fault', rfl, rfl⟩ := same_up_to_fault_cases alike
    · exact echoes_pure rfl
    · exact echoes_pure rfl
  have exactness := (interrupted _ _ (ready inner) (ready outer)).1
  unfold moment at registers ⊢
  rw [Moment.mk.injEq]
  exact ⟨registers, exactness⟩

theorem moment_add (further : Nat) : p.moment (inner + further) = p.moment (outer + further) := by
  induction further with
  | zero => exact same
  | succ further ih => exact moment_succ linux ih

theorem stops_alike : (p.stops inner).isSome = (p.stops outer).isSome := by
  unfold stops
  obtain ⟨cache, decoded, decoded'⟩ | ⟨fault, fault', failed, failed'⟩ :=
    same_up_to_fault_cases (from_scratch_alike linux same)
  · rw [decoded, decoded']
  · rw [failed, failed']
    rfl

end Callers

/-! Backtraces that end. -/
section Ends

def BacktraceEnds (p : StoppedProcess) : Prop :=
  ∃ frames, ∀ shown limit, ((p.backtrace shown limit).run {}).1.length ≤ frames

def Recurs (p : StoppedProcess) : Prop :=
  ∃ inner outer, inner < outer ∧ p.moment inner = p.moment outer ∧
    ∀ level < outer, p.stops level = none

variable {p : StoppedProcess} {level limit : Nat} {reports : List FrameReport}

theorem traced_stopped (traced : p.Traced level limit reports) {last : Nat} (within : level ≤ last)
    (stops : (p.stops last).isSome) : level + reports.length ≤ last + 1 := by
  induction traced with
  | ends tells done => exact Nat.succ_le_succ within
  | @goes level limit report rest tells reason others ih =>
      have further : level ≠ last := by
        rintro rfl
        rw [← tells.reason, reason] at stops
        cases stops
      have rest := ih (by omega)
      rw [List.length_cons]
      omega

theorem traced_unstopped (traced : p.Traced level limit reports) (goes : ∀ level, p.stops level = none) :
    reports.length = limit + 1 := by
  induction traced with
  | ends tells done =>
      rcases done with full | stopped
      · rw [full, List.length_singleton]
      · rw [tells.reason, goes] at stopped
        cases stopped
  | goes tells reason others ih => rw [List.length_cons, ih]

variable (asks : p.arch.AsksOnly)

include asks

theorem backtrace_ends_iff : p.BacktraceEnds ↔ ∃ level, (p.stops level).isSome := by
  have traced (shown : List Register) (limit : Nat) :
      p.Traced 0 limit ((p.backtrace shown limit).run {}).1 :=
    backtrace_traced asks shown limit {} (Session.fresh_sound _ 0)
  constructor
  · rintro ⟨frames, bounded⟩
    by_contra unstopped
    have goes (level : Nat) : p.stops level = none :=
      Option.not_isSome_iff_eq_none.mp fun stops => unstopped ⟨level, stops⟩
    have length := traced_unstopped (traced [] frames) goes
    have bound := bounded [] frames
    omega
  · rintro ⟨level, stops⟩
    refine ⟨level + 1, fun shown limit => ?_⟩
    have length := traced_stopped (traced shown limit) (Nat.zero_le level) stops
    omega

omit asks

omit asks in
instance moments_finite : Finite Moment := by
  have : Finite Register := Finite.of_injective (fun r => r.number.toFin) <| by
    rintro ⟨⟨⟨number⟩⟩⟩ ⟨⟨⟨number'⟩⟩⟩ same
    cases same
    rfl
  have : Finite UInt64 := Finite.of_injective UInt64.toFin <| by
    rintro ⟨⟨word⟩⟩ ⟨⟨word'⟩⟩ same
    cases same
    rfl
  apply Finite.of_injective fun moment : Moment => (moment.registers, moment.exact)
  rintro ⟨registers, exactness⟩ ⟨registers', exactness'⟩ same
  cases same
  rfl

variable (linux : p.arch = Amd64.linux)

include linux

theorem recurs_forever (recurs : p.Recurs) (level : Nat) : p.stops level = none := by
  obtain ⟨inner, outer, further, same, unstopped⟩ := recurs
  induction level using Nat.strongRecOn with
  | ind level ih =>
      by_cases before : level < outer
      · exact unstopped level before
      · -- the frame is as far behind the outer frame as this one is behind the inner
        have alike := stops_alike linux (moment_add linux same (level - outer))
        rw [ih (inner + (level - outer)) (by omega),
          Nat.add_sub_of_le (Nat.le_of_not_lt before)] at alike
        exact Option.not_isSome_iff_eq_none.mp (by simp [← alike])

omit linux in
theorem recurs_of_unstopped (goes : ∀ level, p.stops level = none) : p.Recurs := by
  obtain ⟨one, other, apart, same⟩ := Finite.exists_ne_map_eq_of_infinite p.moment
  rcases Nat.lt_or_gt_of_ne apart with first | second
  · exact ⟨one, other, first, same, fun level _ => goes level⟩
  · exact ⟨other, one, second, same.symm, fun level _ => goes level⟩

theorem backtrace_ends_iff_not_recurs : p.BacktraceEnds ↔ ¬ p.Recurs := by
  rw [backtrace_ends_iff (linux_asks linux)]
  constructor
  · rintro ⟨level, stops⟩ recurs
    rw [recurs_forever linux recurs level] at stops
    cases stops
  · intro unrepeated
    by_contra unstopped
    apply unrepeated
    apply recurs_of_unstopped
    intro level
    exact Option.not_isSome_iff_eq_none.mp fun stops => unstopped ⟨level, stops⟩

end Ends

end StoppedProcess

/-- A backtrace of a process of the usual 64-bit architecture ends, however many frames there is room for,
unless it comes to a frame at the same moment as a frame further in. From there on the frames between the
two come again and again. A frame whose instruction pointer cannot be read ends it. -/
theorem backtrace_ends_or_recurs (machine : Machine) (cfi : CfiTable) :
    let p : StoppedProcess := { machine, arch := Amd64.linux, cfi }
    (p.BacktraceEnds ↔ ¬ p.Recurs) ∧
    (∀ inner outer, p.moment inner = p.moment outer → ∀ further,
      p.moment (inner + further) = p.moment (outer + further) ∧
        (p.stops (inner + further)).isSome = (p.stops (outer + further)).isSome) ∧
    ∀ level, (∀ pc, afresh level (p.readRegister level Amd64.rip) ≠ .ok pc) →
      (p.stops level).isSome := by
  intro p
  refine ⟨StoppedProcess.backtrace_ends_iff_not_recurs rfl, ?_, ?_⟩
  · intro inner outer same further
    have later := StoppedProcess.moment_add rfl same further
    exact ⟨later, StoppedProcess.stops_alike rfl later⟩
  · intro level unreadable
    by_contra unstopped
    obtain ⟨cache, decodes⟩ :=
      StoppedProcess.stops_none (Option.not_isSome_iff_eq_none.mp unstopped)
    obtain ⟨pc, read⟩ := StoppedProcess.decoded_pc rfl level cache decodes
    exact unreadable pc read

/-- A process that was stopped in a function whose frame takes no room on the stack, and which does not
say where its return address is. Its caller looks like the function itself. -/
def ownCaller : StoppedProcess where
  machine := { registers := [(Amd64.rip, 0x1010), (Amd64.rsp, 0x7000)] }
  arch := Amd64.linux
  cfi := .ofFunctions [(sampleCie [0x0c, 7, 0], sampleFde 0x1000 [])]

-- The innermost program counter is exact and the others are not, so it is from the first caller on that
-- all frames are alike.
theorem own_caller_recurs : ownCaller.Recurs := by
  have untouched (r : Register) : ¬ ownCaller.Gives (Session.fresh 1) 1 r := by
    rintro ⟨located, locating, instruction, member, gives⟩
    have decoded : (((ownCaller.unwinder.locate 1).run.run (Session.fresh 1)).1.toOption.map
        fun located => (located.entry.initialProgram ++ located.entry.program).map Except.toOption) =
          some [some (.defCfa 7 0)] := by decide +kernel
    rw [locating] at decoded
    have listed : some instruction ∈ [some (Instruction.defCfa 7 0)] := by
      rw [← Option.some.inj decoded]
      exact List.mem_map_of_mem member
    simp only [List.mem_singleton, Option.some.injEq] at listed
    subst listed
    exact gives
  have goes : ∀ level < 2, ownCaller.stops level = none := by decide +kernel
  obtain ⟨cache, decodes⟩ := StoppedProcess.stops_none (goes 1 (by decide))
  refine ⟨1, 2, by decide, ?_, goes⟩
  have registers : (ownCaller.moment 1).registers = (ownCaller.moment 2).registers := by
    funext r
    by_cases pc : r = Amd64.rip
    · subst pc
      decide +kernel
    by_cases sp : r = Amd64.rsp
    · subst sp
      decide +kernel
    · apply congrArg Except.toOption
      rw [StoppedProcess.afresh_succ amd64_linux_asks 1]
      exact (StoppedProcess.caller_preserved rfl decodes r pc sp (untouched r)).symm
  have exactness : (ownCaller.moment 1).exact = (ownCaller.moment 2).exact := by decide +kernel
  exact congrArg₂ StoppedProcess.Moment.mk registers exactness

theorem own_caller_has_no_end : ¬ ownCaller.BacktraceEnds := by
  rw [StoppedProcess.backtrace_ends_iff amd64_linux_asks]
  rintro ⟨level, stops⟩
  rw [StoppedProcess.recurs_forever rfl own_caller_recurs level] at stops
  cases stops

end CallFrame
