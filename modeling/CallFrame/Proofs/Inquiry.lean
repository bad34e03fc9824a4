import CallFrame.StoppedProcess

/-!
What code that is handed a frame can find out. Hooks, registered functions and evaluators have nothing
but the frame: they ask for registers of it or of a frame inside it and for memory, one question after
the other, and the next question may depend on the answers so far. Two things follow for whatever asks
no other way. It does not matter which inferior answers, as long as the answers are the same; and it
can only do to a session what the questions do.
-/

namespace CallFrame

/-- Questions and, in the end, a result. -/
inductive Inquiry (α : Type) where
  | result (value : α)
  /-- Asks for a register of the frame that is so many calls inward. -/
  | register (inward : Nat) (r : Register) (next : Except Fault UInt64 → Inquiry α)
  | memory (address : UInt64) (length : Nat) (next : Except Fault (List UInt8) → Inquiry α)

namespace Inquiry

def run (frame : Frame) : Inquiry α → SessionM α
  | .result value => pure value
  | .register inward r next => do
    let value ← (frame.inferior.readRegister (frame.level - inward) r).run
    (next value).run frame
  | .memory address length next => do
    let bytes ← (frame.inferior.readMemory address length).run
    (next bytes).run frame

def bind : Inquiry α → (α → Inquiry β) → Inquiry β
  | .result value, follow => follow value
  | .register inward r next, follow => .register inward r fun value => (next value).bind follow
  | .memory address length next, follow =>
    .memory address length fun bytes => (next bytes).bind follow

theorem run_bind (frame : Frame) (inquiry : Inquiry α) (follow : α → Inquiry β) :
    (inquiry.bind follow).run frame = inquiry.run frame >>= fun value => (follow value).run frame := by
  induction inquiry with
  | result value => rfl
  | register inward r next ih =>
      simp only [Inquiry.bind, Inquiry.run, ih]
      rfl
  | memory address length next ih =>
      simp only [Inquiry.bind, Inquiry.run, ih]
      rfl

end Inquiry

/-- The computation only asks the frame of that level, and asks the same of every inferior. -/
def Asks (level : Nat) (target : Target) (question : Inferior → SessionM α) : Prop :=
  ∃ inquiry : Inquiry α, ∀ inferior, question inferior = inquiry.run ⟨level, target, inferior⟩

section Asks

variable {level : Nat} {target : Target}

theorem asks_pure (value : α) : Asks level target fun _ => pure value :=
  ⟨.result value, fun _ => rfl⟩

theorem asks_bind {question : Inferior → SessionM α} {follow : Inferior → α → SessionM β}
    (first : Asks level target question)
    (rest : ∀ value, Asks level target fun inferior => follow inferior value) :
    Asks level target fun inferior => question inferior >>= follow inferior := by
  obtain ⟨inquiry, asked⟩ := first
  refine ⟨inquiry.bind fun value => (rest value).choose, fun inferior => ?_⟩
  rw [Inquiry.run_bind]
  change question inferior >>= follow inferior = _
  rw [asked]
  apply congrArg (inquiry.run _ >>= ·)
  funext value
  exact (rest value).choose_spec inferior

theorem asks_unwind_bind {question : Inferior → UnwindM α} {follow : Inferior → α → UnwindM β}
    (first : Asks level target fun inferior => (question inferior).run)
    (rest : ∀ value, Asks level target fun inferior => (follow inferior value).run) :
    Asks level target fun inferior => (question inferior >>= follow inferior).run := by
  change Asks level target fun inferior =>
    (question inferior).run >>= ExceptT.bindCont (follow inferior)
  apply asks_bind first
  intro outcome
  cases outcome with
  | error fault => exact asks_pure _
  | ok value => exact rest value

theorem asks_register (r : Register) :
    Asks level target fun inferior => (Frame.readRegister ⟨level, target, inferior⟩ r).run :=
  ⟨.register 0 r .result, fun _ => rfl⟩

theorem asks_memory (address : UInt64) (length : Nat) :
    Asks level target fun inferior =>
      (Frame.readMemory ⟨level, target, inferior⟩ address length).run :=
  ⟨.memory address length .result, fun _ => rfl⟩

theorem asks_address (address : UInt64) :
    Asks level target fun inferior => (Frame.readAddress ⟨level, target, inferior⟩ address).run := by
  simp only [Frame.readAddress, Inferior.readAddress]
  split
  · exact asks_pure _
  · apply asks_unwind_bind (asks_memory address _)
    intro bytes
    exact asks_pure _

theorem asks_map {question : Inferior → α → SessionM β} (items : List α)
    (each : ∀ item, Asks level target fun inferior => question inferior item) :
    Asks level target fun inferior => items.mapM (question inferior) := by
  induction items with
  | nil => exact asks_pure _
  | cons item rest ih =>
      simp only [List.mapM_cons]
      apply asks_bind (each item)
      intro value
      apply asks_bind ih
      intro values
      exact asks_pure _

structure AgreeTo (level : Nat) (one other : Inferior) : Prop where
  registers : ∀ inner ≤ level, one.readRegister inner = other.readRegister inner
  memory : one.readMemory = other.readMemory

theorem AgreeTo.mono {inner : Nat} {one other : Inferior} (agree : AgreeTo level one other)
    (within : inner ≤ level) : AgreeTo inner one other where
  registers innermost below := agree.registers innermost (Nat.le_trans below within)
  memory := agree.memory

theorem asks_agree {question : Inferior → SessionM α} (asks : Asks level target question)
    {one other : Inferior} (agree : AgreeTo level one other) : question one = question other := by
  obtain ⟨inquiry, asked⟩ := asks
  rw [asked, asked]
  clear asked
  induction inquiry with
  | result value => rfl
  | register inward r next ih =>
      simp only [Inquiry.run, ih, agree.registers _ (Nat.sub_le level inward)]
  | memory address length next ih =>
      simp only [Inquiry.run, ih, agree.memory]

end Asks

/-- The hooks and functions of the architecture only ask the frames that they are given. -/
structure Arch.AsksOnly (arch : Arch) : Prop where
  initReg (hook : Frame → Register → SessionM RegisterRule) : arch.initReg = some hook →
    ∀ level r, Asks level arch.toTarget fun inferior => hook ⟨level, arch.toTarget, inferior⟩ r
  signalFrame (hook : Frame → SessionM Bool) : arch.signalFrame = some hook →
    ∀ level, Asks level arch.toTarget fun inferior => hook ⟨level, arch.toTarget, inferior⟩
  functions (name : String) (level : Nat) (r : Register) :
    Asks level arch.toTarget fun inferior =>
      (arch.functions name ⟨level, arch.toTarget, inferior⟩ r).run

def AskingEvaluator (target : Target) (evaluator : Evaluator) : Prop :=
  ∀ expression level initial want, Asks level target fun inferior =>
    (evaluator expression ⟨level, target, inferior⟩ initial want).run

namespace Unwinder

def through (u : Unwinder) (inferior : Inferior) : Unwinder := { u with inferior }

structure AsksOnly (u : Unwinder) : Prop where
  arch : u.arch.AsksOnly
  evaluator : AskingEvaluator u.arch.toTarget u.evaluator

variable {u : Unwinder} (asks : u.AsksOnly) (level : Nat)

include asks

theorem asks_trampoline :
    Asks level u.arch.toTarget fun inferior =>
      u.arch.isSignalFrame ((u.through inferior).frame level) := by
  unfold Arch.isSignalFrame
  cases installed : u.arch.signalFrame with
  | none => exact asks_pure _
  | some hook => exact asks.arch.signalFrame hook installed level

theorem asks_rules (count : Nat) :
    Asks level u.arch.toTarget fun inferior =>
      u.arch.initialRules ((u.through inferior).frame level) count := by
  unfold Arch.initialRules
  cases installed : u.arch.initReg with
  | none => exact asks_pure _
  | some hook =>
      dsimp only
      apply asks_bind
      · apply asks_map
        intro column
        exact asks.arch.initReg hook installed level _
      · intro rules
        exact asks_pure _

theorem asks_cfa (rule : Option CfaRule) :
    Asks level u.arch.toTarget fun inferior => ((u.through inferior).evaluateCfa level rule).run := by
  cases rule with
  | none => exact asks_pure _
  | some rule =>
      cases rule with
      | registerAndOffset r offset =>
          apply asks_unwind_bind (asks_register r)
          intro base
          exact asks_pure _
      | expression e => exact asks.evaluator e level none .address

theorem asks_direct (cache : FrameCache) (r : Register) (rule : RegisterRule) :
    Asks level u.arch.toTarget fun inferior =>
      ((u.through inferior).applyDirect cache level r rule).run := by
  cases rule with
  | sameValue => exact asks_unwind_bind (asks_register r) fun _ => asks_pure _
  | savedAtOffset offset => exact asks_unwind_bind (asks_address _) fun _ => asks_pure _
  | savedInRegister source => exact asks_unwind_bind (asks_register source) fun _ => asks_pure _
  | savedByExpression e =>
      apply asks_unwind_bind (asks.evaluator e level _ .address)
      intro address
      exact asks_unwind_bind (asks_address address) fun _ => asks_pure _
  | savedValueByExpression e =>
      exact asks_unwind_bind (asks.evaluator e level _ .value) fun _ => asks_pure _
  | callFunction name => exact asks.arch.functions name level r
  | unspecified | undefined | savedValueAtOffset | returnAddress | returnAddressAtOffset
  | cfaValue | cfaValueAtOffset => exact asks_pure _

theorem asks_apply (cache : FrameCache) (r : Register) (rule : RegisterRule) :
    Asks level u.arch.toTarget fun inferior =>
      ((u.through inferior).apply cache level r rule).run := by
  cases rule with
  | returnAddress => exact asks_direct asks level cache _ _
  | returnAddressAtOffset offset =>
      apply asks_unwind_bind (asks_direct asks level cache cache.returnColumn cache.returnRule)
      intro value
      cases value.known <;> exact asks_pure _
  | unspecified | undefined | sameValue | savedAtOffset | savedInRegister | savedByExpression
  | savedValueAtOffset | savedValueByExpression | callFunction | cfaValue | cfaValueAtOffset =>
      simp only [Unwinder.apply]
      exact asks_direct asks level cache r _

variable {level : Nat} {other : Inferior}

theorem locate_through (agree : AgreeTo level other u.inferior) (exact : SessionM Bool) :
    (u.through other).locateWith exact level = u.locateWith exact level := by
  have pc : ((u.through other).frame level).pc = (u.frame level).pc :=
    congrFun (agree.registers level (Nat.le_refl level)) _
  have trampoline := asks_agree (asks_trampoline asks level) agree
  simp only [locateWith, pc]
  simp only [through] at trampoline ⊢
  rw [trampoline]
  rfl

theorem interpret_through (agree : AgreeTo level other u.inferior) (located : Located) :
    (u.through other).interpret level located = u.interpret level located := by
  have rules (count : Nat) := asks_agree (asks_rules asks level count) agree
  simp only [interpret, through] at rules ⊢
  rw [rules]

theorem decode_through (agree : AgreeTo level other u.inferior) (exact : SessionM Bool) :
    (u.through other).decodeWith exact level = u.decodeWith exact level := by
  simp only [decodeWith, locate_through asks agree, interpret_through asks agree]
  have cfa (rule : Option CfaRule) : (u.through other).evaluateCfa level rule = u.evaluateCfa level rule :=
    asks_agree (asks_cfa asks level rule) agree
  simp only [cfa]
  rfl

theorem cache_through (agree : AgreeTo level other u.inferior) :
    (u.through other).cache level = u.cache level := by
  induction level with
  | zero => exact congrArg (once 0) (decode_through asks agree _)
  | succ level ih =>
      simp only [cache, ih (agree.mono (Nat.le_succ level)), decode_through asks agree]

/-- It does not matter to a recovered register which of two inferiors is asked for what they agree on. -/
theorem recover_through (agree : AgreeTo level other u.inferior) (r : Register) :
    (u.through other).recoverRegister level r = u.recoverRegister level r := by
  have value (cache : FrameCache) (rule : RegisterRule) :
      (u.through other).apply cache level r rule = u.apply cache level r rule :=
    asks_agree (asks_apply asks level cache r rule) agree
  simp only [recoverRegister, cache_through asks agree, value]

end Unwinder

theorem stack_evaluator_asks (target : Target) : AskingEvaluator target stackEvaluator := by
  intro expression level initial want
  simp only [stackEvaluator]
  generalize expression.code.length = fuel
  generalize initial.toList = stack
  generalize expression.code = code
  induction fuel generalizing code stack with
  | zero =>
      cases code with
      | nil =>
          cases stack <;> exact asks_pure _
      | cons => exact asks_pure _
  | succ fuel ih =>
      cases code with
      | nil =>
          cases stack <;> exact asks_pure _
      | cons opcode operands =>
          simp only [StackEvaluator.evaluateFrom]
          split
          · exact ih _ _
          split
          · apply asks_unwind_bind (asks_register _)
            intro base
            split
            · exact asks_pure _
            · exact ih _ _
          split
          · split
            · exact asks_pure _
            · exact asks_pure _
            · exact ih _ _
          split
          · split
            · exact asks_pure _
            · apply asks_unwind_bind (asks_address _)
              intro value
              exact ih _ _
          · exact asks_pure _

theorem usual_init_reg_asks (level : Nat) (target : Target) (r : Register) :
    Asks level target fun inferior => usualInitReg ⟨level, target, inferior⟩ r :=
  asks_pure (if r = target.pc then RegisterRule.returnAddress
    else if r = target.sp then RegisterRule.cfaValue else RegisterRule.unspecified)

theorem has_signal_return_asks (level : Nat) (target : Target) (address : UInt64) :
    Asks level target fun inferior =>
      Amd64.hasSignalReturn ⟨level, target, inferior⟩ address := by
  apply asks_bind (asks_memory address _)
  intro code
  cases code <;> exact asks_pure _

theorem amd64_linux_asks : Amd64.linux.AsksOnly where
  initReg hook installed level r := by
    cases installed
    exact usual_init_reg_asks level _ r
  signalFrame hook installed level := by
    cases installed
    apply asks_bind (asks_register _)
    intro pc
    cases pc with
    | error fault => exact asks_pure _
    | ok pc =>
        apply asks_bind (has_signal_return_asks level _ pc)
        intro here
        split
        · exact asks_pure _
        split
        · exact asks_pure _
        · exact has_signal_return_asks level _ _
  functions name level r := asks_pure _

end CallFrame
