import CallFrame.Proofs.OpcodePolicy
import CallFrame.Proofs.Parsing

/-!
Unwinding goes inward. A process, its unwinder, the hooks of its architecture and the evaluator call each
other. Reading a register of a frame recovers it from the frame inside; recovering decodes that frame; and
decoding reads its registers, which takes one to the next frame inside. So the recursion ends with the
innermost frame, and while the slot of a frame is being filled nothing asks for that slot again, or for
one further out.
-/

namespace CallFrame

/-! Computations that have to do with inner frames only. -/
section Confined

structure Session.SameBelow (level : Nat) (one other : Session) : Prop where
  size : one.chain.size = other.chain.size
  slots (inner : Nat) : inner < level → one.chain.slot? inner = other.chain.slot? inner
  warnings : one.warnings = other.warnings
  requests : one.requests = other.requests
  decodings : one.decodings = other.decodings

/-- The computation has nothing to do with the slots from a level on. It comes to the same whatever they
hold, empty or filled; it leaves them as they are; and it begins to fill others only. -/
structure Confined (level : Nat) (computation : SessionM α) : Prop where
  blind (one other : Session) : one.SameBelow level other →
    (computation.run one).1 = (computation.run other).1 ∧
      (computation.run one).2.SameBelow level (computation.run other).2
  size (session : Session) : (computation.run session).2.chain.size = session.chain.size
  untouched (session : Session) (outer : Nat) : level ≤ outer →
    (computation.run session).2.chain.slot? outer = session.chain.slot? outer
  begun (session : Session) : ∃ levels,
    (computation.run session).2.decodings = session.decodings ++ levels ∧
      ∀ inner ∈ levels, inner < level

variable {level : Nat}

theorem confined_pure (value : α) : Confined level (pure value : SessionM α) where
  blind _ _ same := ⟨rfl, same⟩
  size _ := rfl
  untouched _ _ _ := rfl
  begun session := ⟨[], (List.append_nil _).symm, by simp⟩

theorem confined_bind {first : SessionM α} {follow : α → SessionM β} (begins : Confined level first)
    (rest : ∀ value, Confined level (follow value)) : Confined level (first >>= follow) where
  blind one other same := by
    obtain ⟨answer, after⟩ := begins.blind one other same
    rw [SessionM.run_bind, SessionM.run_bind, answer]
    exact (rest _).blind _ _ after
  size session := ((rest _).size _).trans (begins.size session)
  untouched session outer outside :=
    ((rest _).untouched _ outer outside).trans (begins.untouched session outer outside)
  begun session := by
    obtain ⟨early, begun, inside⟩ := begins.begun session
    obtain ⟨late, begun', inside'⟩ := (rest _).begun (first.run session).2
    refine ⟨early ++ late, ?_, ?_⟩
    · rw [SessionM.run_bind, begun', begun, List.append_assoc]
    · intro inner member
      rcases List.mem_append.mp member with before | after
      · exact inside inner before
      · exact inside' inner after

theorem confined_warn (warnings : List Warning) : Confined level (warn warnings) where
  blind _ _ same := ⟨rfl, { same with warnings := congrArg (· ++ warnings) same.warnings }⟩
  size _ := rfl
  untouched _ _ _ := rfl
  begun session := ⟨[], (List.append_nil _).symm, by simp⟩

theorem confined_composes : Compositional fun _ computation => Confined level computation :=
  ⟨confined_pure, confined_bind, confined_warn⟩

theorem present_confined (asked : Nat) :
    Confined level (do return (← get).chain.contains asked) where
  blind one other same := ⟨congrArg (decide <| asked < ·) same.size, same⟩
  size _ := rfl
  untouched _ _ _ := rfl
  begun session := ⟨[], (List.append_nil _).symm, by simp⟩

theorem Confined.mono {inner : Nat} {computation : SessionM α} (confined : Confined inner computation)
    (within : inner ≤ level) : Confined level computation where
  blind one other same := by
    obtain ⟨answer, after⟩ := confined.blind one other
      { same with slots := fun level below => same.slots level (Nat.lt_of_lt_of_le below within) }
    refine ⟨answer, { after with slots := fun level below => ?_ }⟩
    by_cases inside : level < inner
    · exact after.slots level inside
    · rw [confined.untouched one level (Nat.le_of_not_lt inside),
        confined.untouched other level (Nat.le_of_not_lt inside)]
      exact same.slots level below
  size := confined.size
  untouched session outer outside := confined.untouched session outer (Nat.le_trans within outside)
  begun session := by
    obtain ⟨levels, begun, inside⟩ := confined.begun session
    exact ⟨levels, begun, fun level member => Nat.lt_of_lt_of_le (inside level member) within⟩

theorem Session.SameBelow.fill {one other : Session} (same : one.SameBelow level other)
    (present : level < one.chain.size) (result : Except Fault FrameCache) :
    Session.SameBelow (level + 1) { one with chain := one.chain.fill result level }
      { other with chain := other.chain.fill result level } where
  size := by rw [FrameChain.size_fill, FrameChain.size_fill, same.size]
  slots inner below := by
    rw [FrameChain.slot_fill _ result present, FrameChain.slot_fill _ result (same.size ▸ present)]
    split
    · rfl
    · exact same.slots inner (by omega)
  warnings := same.warnings
  requests := same.requests
  decodings := same.decodings

theorem confined_once {compute : UnwindM FrameCache} (confined : Confined level compute.run) :
    Confined (level + 1) (Unwinder.once level compute).run where
  blind one other same := by
    have slot := same.slots level (Nat.lt_succ_self level)
    rw [Unwinder.once_run, Unwinder.once_run, ← slot]
    rcases known : one.chain.slot? level with _ | _ | result
    · exact ⟨rfl, same⟩
    · have begun : (one.withDecoding level).SameBelow level (other.withDecoding level) :=
        { same with
          slots := fun inner below => same.slots inner (Nat.lt_succ_of_lt below)
          decodings := congrArg (· ++ [level]) same.decodings }
      obtain ⟨answer, after⟩ := confined.blind _ _ begun
      dsimp only
      refine ⟨answer, ?_⟩
      rw [← answer]
      apply after.fill
      rw [confined.size]
      exact FrameChain.slot_inside known
    · exact ⟨rfl, same⟩
  size session := by
    rw [Unwinder.once_run]
    rcases session.chain.slot? level with _ | _ | result
    · rfl
    · exact (FrameChain.size_fill _ _ level).trans (confined.size _)
    · rfl
  untouched session outer outside := by
    rw [Unwinder.once_run]
    rcases known : session.chain.slot? level with _ | _ | result
    · rfl
    · have present := FrameChain.slot_inside known
      dsimp only
      rw [FrameChain.slot_fill, if_neg (by omega)]
      · exact confined.untouched _ outer (by omega)
      · rw [confined.size]
        exact present
    · rfl
  begun session := by
    rw [Unwinder.once_run]
    rcases session.chain.slot? level with _ | _ | result
    · exact ⟨[], (List.append_nil _).symm, by simp⟩
    · obtain ⟨levels, begun, inside⟩ := confined.begun (session.withDecoding level)
      refine ⟨level :: levels, begun.trans ?_, ?_⟩
      · rw [Session.withDecoding, List.append_assoc, List.singleton_append]
      · rw [List.forall_mem_cons]
        exact ⟨Nat.lt_succ_self level, fun inner member => Nat.lt_succ_of_lt (inside inner member)⟩
    · exact ⟨[], (List.append_nil _).symm, by simp⟩

end Confined

/-! What unwinders have to do with. -/
namespace Unwinder

variable {u : Unwinder} (asks : u.AsksOnly) {level : Nat}
  (registers : ∀ inner r, inner ≤ level → Confined inner (u.inferior.readRegister inner r).run)
  (memory : ∀ address length, Confined 0 (u.inferior.readMemory address length).run)

include asks registers memory

theorem parts_confined : u.Parts (fun _ computation => Confined level computation) level :=
  parts_of_asks confined_composes asks (present_confined level)
    (fun inner r within => (registers inner r within).mono within)
    fun address length => (memory address length).mono (Nat.zero_le _)

theorem exact_confined : Confined level (u.exactPc level) := by
  induction level with
  | zero => exact confined_pure true
  | succ level ih =>
      have inside (inner : Nat) (r : Register) (within : inner ≤ level) :=
        registers inner r (Nat.le_succ_of_le within)
      have decode : Confined level (u.decode level).run :=
        decode_with_holds confined_composes (parts_confined asks inside memory) (ih inside)
      change Confined (level + 1) (interrupted (u.cache level))
      rw [cache_eq_once]
      apply confined_bind (confined_once decode)
      intro cache
      cases cache <;> exact confined_pure _

theorem decode_confined : Confined level (u.decode level).run :=
  decode_with_holds confined_composes (parts_confined asks registers memory)
    (exact_confined asks registers memory)

theorem cache_confined : Confined (level + 1) (u.cache level).run := by
  rw [cache_eq_once]
  exact confined_once (decode_confined asks registers memory)

theorem recover_confined (r : Register) : Confined (level + 1) (u.recoverRegister level r).run := by
  apply confined_composes.unwind_bind (cache_confined asks registers memory)
  intro cache
  have applied := apply_holds confined_composes (parts_confined asks registers memory) cache r
    (cache.row.rule r)
  exact applied.mono (Nat.le_succ level)

theorem ask_confined (question : Question) : Confined (level + 1) (u.ask level question) := by
  have located : Confined level (u.locate level).run :=
    locate_with_holds confined_composes (parts_confined asks registers memory)
      (exact_confined asks registers memory)
  apply ask_holds confined_composes (cache_confined asks registers memory)
  · exact located.mono (Nat.le_succ level)
  · exact recover_confined asks registers memory
  · intro r
    exact (registers level r (Nat.le_refl level)).mono (Nat.le_succ level)

end Unwinder

/-! Questions through unwinders that read registers alike. -/
namespace Unwinder

variable {u : Unwinder} (asks : u.AsksOnly) {level : Nat} {other : Inferior}

include asks

theorem exact_through (agree : AgreeTo level other u.inferior) :
    (u.through other).exactPc level = u.exactPc level := by
  cases level with
  | zero => rfl
  | succ level =>
      exact congrArg interrupted (cache_through asks (agree.mono (Nat.le_succ level)))

theorem ask_through (agree : AgreeTo level other u.inferior) (question : Question) :
    (u.through other).ask level question = u.ask level question := by
  have cache := cache_through asks agree
  have located : (u.through other).locate level = u.locate level := by
    rw [locate, exact_through asks agree]
    exact locate_through asks agree _
  have canUnwind : (u.through other).canUnwind level = u.canUnwind level := by
    simp only [Unwinder.canUnwind, located]
  have computeCfa : (u.through other).computeCfa level = u.computeCfa level := by
    simp only [Unwinder.computeCfa, cache]
  cases question with
  | canUnwind => exact canUnwind
  | computeCfa => exact congrArg ExceptT.run computeCfa
  | rule r =>
      change ((u.through other).rule level r).run = (u.rule level r).run
      simp only [rule, cache]
  | recoverRegister r => exact congrArg ExceptT.run (recover_through asks agree r)
  | frameId =>
      change ((u.through other).frameId level).run = (u.frameId level).run
      simp only [frameId, cache]
  | frameKind =>
      change (u.through other).frameKind level = u.frameKind level
      simp only [frameKind, located]
  | frameBase =>
      change (u.through other).frameBase level = u.frameBase level
      simp only [frameBase, canUnwind, computeCfa]
  | stopReason =>
      change (u.through other).stopReason level = u.stopReason level
      simp only [stopReason, cache]
  | isDegraded =>
      change (u.through other).isDegraded level = u.isDegraded level
      simp only [isDegraded, cache]
  | readRegister r =>
      exact congrArg ExceptT.run (congrFun (agree.registers level (Nat.le_refl level)) r)

end Unwinder

/-! The recursion of a process. -/
namespace StoppedProcess

variable {p : StoppedProcess}

/-- Reading registers by way of unwinders that read registers the same way, all frames alike. The
recursion is not told where to end. At a depth it is cut off, and anything may happen there. -/
def nested (p : StoppedProcess) (beyond : Nat → Register → UnwindM UInt64) :
    (depth level : Nat) → Register → UnwindM UInt64
  | 0, level, r => beyond level r
  | _ + 1, 0, r => p.live r
  | depth + 1, level + 1, r => do
    match ← (p.unwinderOver (p.nested beyond depth)).recoverRegister level r with
    | .unspecified => p.nested beyond depth level r
    | value =>
      match value.known with
      | some value => return value
      | none => throw (.registerUndefined r (level + 1))

variable (asks : p.arch.AsksOnly)

include asks

theorem nested_agree (beyond : Nat → Register → UnwindM UInt64) {depth level : Nat}
    (deep : level < depth) :
    AgreeTo level ⟨p.nested beyond depth, p.readMemory⟩ p.unwinder.inferior := by
  induction depth generalizing level with
  | zero => exact absurd deep (Nat.not_lt_zero level)
  | succ depth ih =>
      refine ⟨fun inner within => ?_, rfl⟩
      funext r
      cases inner with
      | zero => rfl
      | succ inner =>
          have agree : AgreeTo inner ⟨p.nested beyond depth, p.readMemory⟩ p.unwinder.inferior :=
            ih (by omega)
          change p.nested beyond (depth + 1) (inner + 1) r = p.readRegister (inner + 1) r
          rw [read_register_succ asks, ← Unwinder.recover_through (unwinder_asks asks) agree r, nested]
          have same : p.nested beyond depth inner r = p.readRegister inner r :=
            congrFun (agree.registers inner (Nat.le_refl inner)) r
          rw [same]
          rfl

omit asks in
theorem memory_confined (address : UInt64) (length : Nat) :
    Confined 0 (p.readMemory address length).run := by
  unfold readMemory
  cases p.machine.memory.read address length <;> exact confined_pure _

theorem register_confined (level : Nat) (r : Register) :
    Confined level (p.readRegister level r).run := by
  induction level using Nat.strongRecOn generalizing r with
  | ind level ih =>
      cases level with
      | zero =>
          change Confined 0 (p.live r).run
          unfold live
          cases p.machine.register? r <;> exact confined_pure _
      | succ level =>
          have registers (inner : Nat) (r : Register) (within : inner ≤ level) :=
            ih inner (Nat.lt_succ_of_le within) r
          rw [read_register_succ asks]
          apply confined_composes.unwind_bind
            (Unwinder.recover_confined (unwinder_asks asks) registers memory_confined r)
          intro value
          cases value with
          | unspecified => exact (registers level r (Nat.le_refl level)).mono (Nat.le_succ level)
          | same | inRegister | inMemory | computed | undefined => exact confined_pure _

end StoppedProcess

/-! Loops over bytes. -/
section Loops

theorem lenient_from_shorter (signed : Bool) (shift : Nat) (acc : UInt64) {bytes : List UInt8}
    {word : UInt64} {rest : List UInt8}
    (read : Leb128.lenientFrom signed shift acc bytes = some (word, rest)) :
    rest.length < bytes.length := by
  induction bytes generalizing shift acc with
  | nil => cases read
  | cons b bytes ih =>
      unfold Leb128.lenientFrom at read
      dsimp only at read
      split at read
      · exact Nat.lt_succ_of_lt (ih _ _ read)
      · cases read
        exact Nat.lt_succ_self _

-- The bytes of an expression are a bound that its evaluation never comes to.
theorem evaluate_from_enough (frame : Frame) (fuel : Nat) (code : List UInt8) (stack : List UInt64)
    (enough : code.length ≤ fuel) :
    StackEvaluator.evaluateFrom frame fuel code stack =
      StackEvaluator.evaluateFrom frame code.length code stack := by
  have bounded (fuel fuel' : Nat) (code : List UInt8) (stack : List UInt64)
      (enough : code.length ≤ fuel) (enough' : code.length ≤ fuel') :
      StackEvaluator.evaluateFrom frame fuel code stack =
        StackEvaluator.evaluateFrom frame fuel' code stack := by
    induction fuel generalizing fuel' code stack with
    | zero =>
        obtain rfl := List.eq_nil_of_length_eq_zero (Nat.le_zero.mp enough)
        cases fuel' <;> cases stack <;> rfl
    | succ fuel ih =>
        cases code with
        | nil => cases fuel' <;> cases stack <;> rfl
        | cons opcode operands =>
            cases fuel' with
            | zero => exact absurd enough' (Nat.not_succ_le_zero _)
            | succ fuel' =>
                have fewer := Nat.le_of_succ_le_succ enough
                have fewer' := Nat.le_of_succ_le_succ enough'
                have next (rest : List UInt8) (stack : List UInt64)
                    (within : rest.length ≤ operands.length) :=
                  ih fuel' rest stack (Nat.le_trans within fewer) (Nat.le_trans within fewer')
                have behind {signed : Bool} {word : UInt64} {rest : List UInt8} (stack : List UInt64)
                    (read : Leb128.lenient signed operands = some (word, rest)) :=
                  next rest stack (Nat.le_of_lt (lenient_from_shorter signed 0 0 read))
                unfold StackEvaluator.evaluateFrom
                split
                · exact next operands _ (Nat.le_refl _)
                split
                · apply bind_congr
                  intro base
                  split
                  · rfl
                  · exact behind _ (by assumption)
                split
                · split
                  · rfl
                  · rfl
                  · exact behind _ (by assumption)
                split
                · split
                  · rfl
                  · apply bind_congr
                    intro value
                    exact next operands _ (Nat.le_refl _)
                · rfl
  exact bounded fuel _ code stack enough (Nat.le_refl _)

end Loops

/-- Every recursion of unwinding a process ends, and it ends because it goes inward. -/
structure StoppedProcess.Inward (p : StoppedProcess) : Prop where
  /-- Of the recursion to unwinders, questions about a frame take up one level more than its own and
  nothing of what may happen beyond. -/
  ends (beyond : Nat → Register → UnwindM UInt64) (depth level : Nat) : level < depth →
    (∀ r, p.nested beyond depth level r = p.readRegister level r) ∧
      (∀ question, (p.unwinderOver (p.nested beyond depth)).ask level question = p.ask level question) ∧
      (p.unwinderOver (p.nested beyond depth)).decode level = p.unwinder.decode level
  /-- What fills the slot of a frame has nothing to do with that slot or with slots further out. -/
  fills (level : Nat) : p.unwinder.cache level = Unwinder.once level (p.unwinder.decode level) ∧
    Confined level (p.unwinder.decode level).run
  questions (level : Nat) (question : Question) : Confined (level + 1) (p.ask level question)
  registers (level : Nat) (r : Register) : Confined level (p.readRegister level r).run
  /-- Evaluating an expression ends with its bytes. -/
  expressions (frame : Frame) (fuel : Nat) (code : List UInt8) (stack : List UInt64) :
    code.length ≤ fuel → StackEvaluator.evaluateFrom frame fuel code stack =
      StackEvaluator.evaluateFrom frame code.length code stack
  /-- So does decoding a program. -/
  programs (format : OperandFormat) (fuel : Nat) (cursor : Cursor) : cursor.data.length ≤ fuel →
    decodeFrom format fuel cursor = decodeProgram format cursor

/-- Unwinding a process ends, for all hooks and functions that only ask the frames that they are given:
the recursion from the process to its unwinder and back takes no more levels than there are frames up to
the one in question, and no slot is asked for while it is filled, or while one further in is. -/
theorem unwinding_goes_inward (p : StoppedProcess) (asks : p.arch.AsksOnly) : p.Inward where
  ends beyond depth level deep := by
    have agree := StoppedProcess.nested_agree asks beyond deep
    have asks := StoppedProcess.unwinder_asks asks
    refine ⟨fun r => congrFun (agree.registers level (Nat.le_refl level)) r, fun question => ?_, ?_⟩
    · have same := Unwinder.ask_through asks agree question
      cases question <;> exact same
    · rw [Unwinder.decode, Unwinder.decode, ← Unwinder.exact_through asks agree]
      exact Unwinder.decode_through asks agree _
  fills level := ⟨Unwinder.cache_eq_once p.unwinder level,
    Unwinder.decode_confined (StoppedProcess.unwinder_asks asks)
      (fun inner r _ => StoppedProcess.register_confined asks inner r) StoppedProcess.memory_confined⟩
  questions level question := by
    have confined : Confined (level + 1) (p.unwinder.ask level question) :=
      Unwinder.ask_confined (StoppedProcess.unwinder_asks asks)
        (fun inner r _ => StoppedProcess.register_confined asks inner r)
        StoppedProcess.memory_confined question
    cases question <;> exact confined
  registers := StoppedProcess.register_confined asks
  expressions := evaluate_from_enough
  programs := decode_from_enough

-- The function was called from itself. Its caller's program counter takes two levels of the recursion, and
-- decoding the caller fills the slot of the frame inside it, and no other.
theorem unwinding_goes_inward_called :
    let p := calledProcess (({} : Machine).writeWord 0x7000 0x1020).memory
    let cut : Nat → Register → UnwindM UInt64 := fun level _ => throw (.noFrame level)
    p.arch.AsksOnly ∧
      (((p.nested cut 2 1 Amd64.rip).run.run (Session.fresh 1)).1 : Except Fault UInt64).toOption =
        some 0x1020 ∧
      ((p.unwinder.decode 1).run.run (Session.fresh 1)).2.decodings = [0] ∧
      ((p.unwinder.decode 1).run.run (Session.fresh 1)).2.chain.slot? 1 = some none := by
  intro p cut
  have inward := unwinding_goes_inward p amd64_linux_asks
  refine ⟨amd64_linux_asks, ?_, by decide +kernel, ?_⟩
  · rw [(inward.ends cut 2 1 (by decide)).1]
    decide +kernel
  · exact (inward.fills 1).2.untouched (Session.fresh 1) 1 (Nat.le_refl 1)

end CallFrame
