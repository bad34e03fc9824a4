import CallFrame.Proofs.Decoding
import CallFrame.Proofs.Inquiry
import CallFrame.Scripted

/-!
What holds of a computation because it holds of its parts. Decoding a frame and recovering its registers
come down to questions to the frame, put together in one way or another. So what can be said of the
questions, and carries over to whatever is put together, can be said of the unwinder; how it puts them
together is looked at here only.
-/

namespace CallFrame

structure Compositional (holds : (α : Type) → SessionM α → Prop) : Prop where
  pure {α : Type} (value : α) : holds α (pure value)
  bind {α β : Type} {first : SessionM α} {follow : α → SessionM β} :
    holds α first → (∀ value, holds β (follow value)) → holds β (first >>= follow)
  warn (warnings : List Warning) : holds Unit (warn warnings)

namespace Compositional

variable {holds : (α : Type) → SessionM α → Prop} (composes : Compositional holds)

include composes

theorem unwind_bind {first : UnwindM α} {follow : α → UnwindM β} (begins : holds _ first.run)
    (rest : ∀ value, holds _ (follow value).run) : holds _ (first >>= follow).run := by
  change holds _ (first.run >>= ExceptT.bindCont follow)
  apply composes.bind begins
  intro outcome
  cases outcome with
  | error fault => exact composes.pure _
  | ok value => exact rest value

theorem lift {computation : SessionM α} (lifted : holds _ computation) :
    holds _ (liftM computation : UnwindM α).run :=
  composes.bind lifted fun _ => composes.pure _

theorem except (result : Except Fault α) : holds _ (liftM result : UnwindM α).run := by
  cases result <;> exact composes.pure _

theorem map {follow : α → SessionM β} (items : List α) (each : ∀ item, holds _ (follow item)) :
    holds _ (items.mapM follow) := by
  induction items with
  | nil => exact composes.pure _
  | cons item rest ih =>
      rw [List.mapM_cons]
      apply composes.bind (each item)
      intro value
      apply composes.bind ih
      intro values
      exact composes.pure _

/-- Code that is handed a frame does nothing but ask, so it has what the answers have. -/
theorem asks {level : Nat} {target : Target} {question : Inferior → SessionM α}
    (asks : Asks level target question) {inferior : Inferior}
    (registers : ∀ inner r, inner ≤ level → holds _ (inferior.readRegister inner r).run)
    (memory : ∀ address length, holds _ (inferior.readMemory address length).run) :
    holds _ (question inferior) := by
  obtain ⟨inquiry, asked⟩ := asks
  rw [asked]
  clear asked
  induction inquiry with
  | result value => exact composes.pure value
  | register inward r next ih => exact composes.bind (registers _ r (Nat.sub_le level inward)) ih
  | memory address length next ih => exact composes.bind (memory address length) ih

end Compositional

namespace Unwinder

structure Parts (holds : (α : Type) → SessionM α → Prop) (u : Unwinder) (level : Nat) : Prop where
  present : holds Bool (do return (← get).chain.contains level)
  register (r : Register) : holds _ ((u.frame level).readRegister r).run
  memory (address : UInt64) (length : Nat) : holds _ ((u.frame level).readMemory address length).run
  evaluator (e : Expression) (initial : Option UInt64) (want : Want) :
    holds _ (u.evaluator e (u.frame level) initial want).run
  trampoline : holds _ (u.arch.isSignalFrame (u.frame level))
  rules (count : Nat) : holds _ (u.arch.initialRules (u.frame level) count)
  functions (name : String) (r : Register) : holds _ (u.arch.functions name (u.frame level) r).run

variable {holds : (α : Type) → SessionM α → Prop} (composes : Compositional holds) {u : Unwinder}
  {level : Nat}

include composes

theorem parts_of_asks (asks : u.AsksOnly)
    (present : holds Bool (do return (← get).chain.contains level))
    (registers : ∀ inner r, inner ≤ level → holds _ (u.inferior.readRegister inner r).run)
    (memory : ∀ address length, holds _ (u.inferior.readMemory address length).run) :
    u.Parts holds level where
  present := present
  register r := registers level r (Nat.le_refl level)
  memory := memory
  evaluator e initial want := composes.asks (asks.evaluator e level initial want) registers memory
  trampoline := composes.asks (asks_trampoline asks level) registers memory
  rules count := composes.asks (asks_rules asks level count) registers memory
  functions name r := composes.asks (asks.arch.functions name level r) registers memory

variable (parts : u.Parts holds level)

include parts

theorem locate_with_holds {exact : SessionM Bool} (decides : holds _ exact) :
    holds _ (u.locateWith exact level).run := by
  unfold locateWith
  split
  · exact composes.pure _
  change holds _ ((do return (← get).chain.contains level : SessionM Bool) >>= fun present =>
    (if !present then throw (.noFrame level)
      else do
        let pc ← (u.frame level).pc
        let recognized ← u.arch.isSignalFrame (u.frame level)
        let isExact ← (if recognized then pure true else exact : SessionM Bool)
        u.functionAt recognized (if isExact then pc else pc - 1) : UnwindM Located).run)
  apply composes.bind parts.present
  intro present
  split
  · exact composes.pure _
  apply composes.unwind_bind (parts.register _)
  intro pc
  apply composes.unwind_bind (composes.lift parts.trampoline)
  intro recognized
  apply composes.unwind_bind
  · apply composes.lift
    split
    · exact composes.pure true
    · exact decides
  · intro isExact
    exact composes.except _

theorem interpret_holds (located : Located) : holds _ (u.interpret level located) := by
  apply composes.bind (parts.rules _)
  intro rules
  apply composes.bind (composes.warn _)
  intro _
  exact composes.pure _

theorem evaluate_cfa_holds (rule : Option CfaRule) : holds _ (u.evaluateCfa level rule).run := by
  cases rule with
  | none => exact composes.pure _
  | some rule =>
      cases rule with
      | registerAndOffset r offset =>
          exact composes.unwind_bind (parts.register r) fun _ => composes.pure _
      | expression e => exact parts.evaluator e none .address

theorem decode_with_holds {exact : SessionM Bool} (decides : holds _ exact) :
    holds _ (u.decodeWith exact level).run := by
  apply composes.unwind_bind (locate_with_holds composes parts decides)
  intro located
  apply composes.unwind_bind (composes.lift (interpret_holds composes parts located))
  intro unwound
  apply composes.unwind_bind (composes.except _)
  intro _
  apply composes.unwind_bind (evaluate_cfa_holds composes parts _)
  intro cfa
  exact composes.pure _

theorem address_holds (address : UInt64) : holds _ ((u.frame level).readAddress address).run := by
  simp only [Frame.readAddress, Inferior.readAddress]
  split
  · exact composes.pure _
  · exact composes.unwind_bind (parts.memory address _) fun _ => composes.pure _

theorem apply_direct_holds (cache : FrameCache) (r : Register) (rule : RegisterRule) :
    holds _ (u.applyDirect cache level r rule).run := by
  cases rule with
  | sameValue => exact composes.unwind_bind (parts.register r) fun _ => composes.pure _
  | savedInRegister source => exact composes.unwind_bind (parts.register source) fun _ => composes.pure _
  | savedAtOffset offset =>
      exact composes.unwind_bind (address_holds composes parts _) fun _ => composes.pure _
  | savedByExpression e =>
      apply composes.unwind_bind (parts.evaluator e _ .address)
      intro address
      exact composes.unwind_bind (address_holds composes parts address) fun _ => composes.pure _
  | savedValueByExpression e =>
      exact composes.unwind_bind (parts.evaluator e _ .value) fun _ => composes.pure _
  | callFunction name => exact parts.functions name r
  | unspecified | undefined | savedValueAtOffset | returnAddress | returnAddressAtOffset
  | cfaValue | cfaValueAtOffset => exact composes.pure _

theorem apply_holds (cache : FrameCache) (r : Register) (rule : RegisterRule) :
    holds _ (u.apply cache level r rule).run := by
  cases rule with
  | returnAddress => exact apply_direct_holds composes parts cache _ _
  | returnAddressAtOffset offset =>
      apply composes.unwind_bind (apply_direct_holds composes parts cache _ _)
      intro value
      cases value.known <;> exact composes.pure _
  | unspecified | undefined | sameValue | savedAtOffset | savedInRegister | savedByExpression
  | savedValueAtOffset | savedValueByExpression | callFunction | cfaValue | cfaValueAtOffset =>
      simp only [apply]
      exact apply_direct_holds composes parts cache r _

end Unwinder

/-! Collaborators that follow a script. They record what they are asked, and answer from tables. -/
namespace Scripted

theorem byte_evaluator_asks (target : Target) : AskingEvaluator target byteEvaluator := by
  intro expression level initial want
  simp only [byteEvaluator]
  split <;> exact asks_pure _

theorem sample_arch_asks : sampleArch.AsksOnly where
  initReg hook installed := by cases installed
  signalFrame hook installed := by cases installed
  functions name level r := asks_pure _

variable {holds : (α : Type) → SessionM α → Prop} (composes : Compositional holds)
  (records : ∀ request, holds Unit (record request)) (s : Snapshot)

include composes records

theorem register_holds (level : Nat) (r : Register) : holds _ (s.inferior.readRegister level r).run := by
  apply composes.unwind_bind (composes.lift (records _))
  intro _
  cases s.registers.lookup (level, r) <;> exact composes.pure _

theorem memory_holds (address : UInt64) (length : Nat) : holds _ (s.inferior.readMemory address length).run := by
  apply composes.unwind_bind (composes.lift (records _))
  intro _
  cases s.memory.read address length <;> exact composes.pure _

end Scripted

end CallFrame
