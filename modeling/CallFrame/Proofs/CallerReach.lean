import CallFrame.Backtrace
import CallFrame.Proofs.CacheTransparency
import CallFrame.Proofs.ReturnAddress

/-!
When the program counter of a caller can be read. That a frame gives no reason to stop means that it was
decoded and that its return address is not lost on purpose. The caller's program counter is recovered
later, by whatever rule was decoded for it, and what the rule needs may be missing: memory, a register
of the frame, or a result of an expression.
-/

namespace CallFrame

/-! On the usual architectures no register is the return address plus an offset. -/
section UsualRules

variable {target : Target} {entry : CfiEntry}

/-- No register is the return address plus an offset. -/
def Row.Plain (row : Row) : Prop := ∀ r offset, row.rule r ≠ .returnAddressAtOffset offset

theorem plain_set_rule {row : Row} (plain : row.Plain) (r : Register) {rule : RegisterRule}
    (other : ∀ offset, rule ≠ .returnAddressAtOffset offset) : (row.setRule r rule).Plain := by
  intro column offset
  rw [Row.rule_set_rule]
  split
  · exact other offset
  · exact plain column offset

theorem plain_stable (target : Target) : Stable target Row.Plain where
  cfa _ _ plain := plain
  defined row r rule plain _ programmed := by
    apply plain_set_rule plain
    rintro offset rfl
    exact programmed
  restored row source r plain initial _ := plain_set_rule plain r (initial r)

theorem plain_seed (initReg : Register → RegisterRule)
    (plain : ∀ r offset, initReg r ≠ .returnAddressAtOffset offset) :
    (entry.seed target initReg).table.row.Plain := by
  intro r offset
  by_cases inside : r.number.toNat < entry.seedCount target
  · rw [seed_rule initReg r inside]
    unfold seedRule
    split
    · split <;> simp
    · exact plain r offset
  · simp [CfiEntry.seed, Row.rule, Array.getD_eq_getD_getElem?, inside]

theorem usual_initial_rules (arch : Arch) (usual : arch.initReg = some usualInitReg) (frame : Frame)
    (count : Nat) :
    ∃ rules : Array RegisterRule, arch.initialRules frame count = pure rules ∧
      ∀ rule ∈ rules, ∀ offset, rule ≠ .returnAddressAtOffset offset := by
  simp only [Arch.initialRules, usual, usualInitReg, List.mapM_pure, pure_bind]
  refine ⟨_, rfl, ?_⟩
  intro rule member offset
  simp only [List.mem_toArray, List.mem_map] at member
  obtain ⟨column, -, rfl⟩ := member
  split
  · simp
  split <;> simp

theorem usual_interpreted (o : Occasion) (level : Nat)
    (usual : o.unwinder.arch.initReg = some usualInitReg) (unwound : UnwindRow)
    (found : o.interpreted level = .ok unwound) : unwound.row.Plain := by
  obtain ⟨located, after, -, found⟩ := UnwindM.bind_ok found
  obtain ⟨rules, constant, other⟩ := usual_initial_rules _ usual (o.unwinder.frame level)
    (located.entry.seedCount o.unwinder.arch.toTarget)
  rw [UnwindM.run_lift, Unwinder.interpret, constant] at found
  cases found
  apply execute_row (plain_stable _)
  apply plain_seed
  intro r offset
  rw [Array.getD_eq_getD_getElem?]
  cases known : rules[r.number.toNat]? with
  | none => simp
  | some rule => exact other rule (Array.mem_of_getElem? known) offset

end UsualRules

namespace StoppedProcess

variable (p : StoppedProcess)

def HasWord (address : UInt64) : Prop := ∃ bytes, p.machine.memory.read address 8 = .ok bytes

/-- The result of an expression of a frame, with the frame address on the stack. -/
def evaluated (level : Nat) (cfa : UInt64) (e : Expression) (want : Want) : Except Fault UInt64 :=
  afresh level (p.unwinder.evaluator e (p.unwinder.frame level) (some cfa) want)

/-- What a rule for the instruction pointer needs is there. A rule that needs nothing but the frame
address or the instruction pointer of the frame needs no more than decoding the frame did. -/
def Provides (level : Nat) (cfa : UInt64) : RegisterRule → Prop
  | .undefined => False
  | .savedAtOffset offset => p.HasWord (cfa + offset.toUInt64)
  | .savedInRegister source => ∃ value, afresh level (p.readRegister level source) = .ok value
  | .savedByExpression e =>
    ∃ address, p.evaluated level cfa e .address = .ok address ∧ p.HasWord address
  | .savedValueByExpression e => ∃ value, p.evaluated level cfa e .value = .ok value
  | .unspecified | .sameValue | .savedValueAtOffset _ | .callFunction _ | .returnAddress
  | .returnAddressAtOffset _ | .cfaValue | .cfaValueAtOffset _ => True

def ReachesCaller (level : Nat) : Prop :=
  ∃ cache, p.unwinder.fromScratch level = .ok cache ∧
    p.Provides level cache.cfa (cache.row.rule Amd64.rip)

end StoppedProcess

namespace StoppedProcess

variable {p : StoppedProcess} (linux : p.arch = Amd64.linux)

include linux

theorem linux_asks : p.arch.AsksOnly := linux ▸ amd64_linux_asks

theorem read_word (level : Nat) (address : UInt64) :
    (∃ value, afresh level ((p.unwinder.frame level).readAddress address) = .ok value) ↔
      p.HasWord address := by
  have size : p.unwinder.arch.addressSize = 8 := congrArg (·.addressSize) linux
  have fits : ¬ ((8 : UInt8) = 0 ∨ (8 : UInt8) < 8) := by decide
  simp only [Frame.readAddress, Inferior.readAddress, Unwinder.frame, size, HasWord, if_neg fits]
  simp only [unwinder, unwinderOver, readMemory, show (8 : UInt8).toNat = 8 from rfl]
  cases p.machine.memory.read address 8 with
  | error missing =>
      constructor
      · rintro ⟨_, ⟨⟩⟩
      · rintro ⟨_, ⟨⟩⟩
  | ok bytes => exact ⟨fun _ => ⟨bytes, rfl⟩, fun _ => ⟨_, rfl⟩⟩

-- A frame is decoded from its own instruction pointer, and so has one.
theorem decoded_pc (level : Nat) (cache : FrameCache)
    (decodes : p.unwinder.fromScratch level = .ok cache) :
    ∃ pc, afresh level (p.readRegister level Amd64.rip) = .ok pc := by
  have column : p.unwinder.arch.pc = Amd64.rip := congrArg (·.pc) linux
  obtain ⟨located, -, -, found, -⟩ :=
    Occasion.decoded_ok ⟨p.unwinder, Session.fresh level⟩ level cache decodes
  obtain ⟨pc, -, readable, -⟩ := Occasion.located_ok _ level located found
  rw [← column]
  exact ⟨pc, readable⟩

-- The rule for a register refers to no other rule once the frame is decoded.
theorem decoded_rule (level : Nat) (cache : FrameCache)
    (decodes : p.unwinder.fromScratch level = .ok cache) (r : Register) :
    cache.row.rule r ≠ .returnAddress ∧ ∀ offset, cache.row.rule r ≠ .returnAddressAtOffset offset := by
  have usual : p.unwinder.arch.initReg = some usualInitReg := congrArg (·.initReg) linux
  obtain ⟨located, unwound, cfa, -, row, -, rfl⟩ :=
    Occasion.decoded_ok ⟨p.unwinder, Session.fresh level⟩ level cache decodes
  have plain := usual_interpreted _ level usual unwound row
  have ruled := Unwinder.rule_follow_return
    (Unwinder.returnRule unwound.returnColumn (unwound.row.rule unwound.returnColumn)) unwound.row r
  change (Unwinder.followReturn _ unwound.row).rule r ≠ _ ∧
    ∀ offset, (Unwinder.followReturn _ unwound.row).rule r ≠ _
  rw [ruled]
  split
  · cases unwound.row.rule unwound.returnColumn <;> simp [Unwinder.returnRule]
  next other => exact ⟨other, plain r⟩

theorem caller_register (level : Nat) (cache : FrameCache)
    (decodes : p.unwinder.fromScratch level = .ok cache) (r : Register) :
    afresh level (p.readRegister (level + 1) r) =
      afresh level (p.unwinder.apply cache level r (cache.row.rule r)) >>= fun value =>
        afresh level (p.settle level r value) := by
  have asks := linux_asks linux
  have deeper := Nat.le_succ level
  have cacheAnswers := Unwinder.cache_answers (reliable asks level)
  have applied (cache : FrameCache) :=
    Unwinder.apply_steady (reliable asks level) cache r (cache.row.rule r)
  have settled (value : RegisterValue) :
      Steady p.unwinder.fromScratch (level + 1) (level + 1) (p.settle level r value).run := by
    cases value with
    | unspecified => exact steady_mono (register_steady asks level r) deeper deeper
    | same | inRegister | inMemory | computed | undefined => exact steady_pure _
  have cached := (Unwinder.cache_afresh (reliable asks level)).trans decodes
  rw [read_register_succ asks, afresh_bind (Unwinder.recover_steady (reliable asks level) r) settled,
    Unwinder.recoverRegister, afresh_bind ⟨_, cacheAnswers⟩ applied, cached]
  rfl

omit linux in
theorem settle_known {level : Nat} {r : Register} {value : RegisterValue} {known : UInt64}
    (knows : value.known = some known) : p.settle level r value = pure known := by
  cases value <;> cases knows <;> rfl

omit linux in
-- A rule that has one question, and a value for each answer to it.
theorem settle_through {level : Nat} {r : Register} {question : UnwindM UInt64}
    (steady : Steady p.unwinder.fromScratch (level + 1) (level + 1) question.run)
    (form : UInt64 → RegisterValue) (knows : ∀ answer, ((form answer).known).isSome) :
    (∃ value, (afresh level (question >>= fun answer => pure (form answer)) >>=
        fun value => afresh level (p.settle level r value)) = .ok value) ↔
      ∃ answer, afresh level question = .ok answer := by
  have formed (answer : UInt64) : Steady p.unwinder.fromScratch (level + 1) (level + 1)
      (pure (form answer) : UnwindM RegisterValue).run := steady_pure _
  rw [afresh_bind steady formed]
  cases afresh level question with
  | error fault =>
      constructor
      · rintro ⟨_, ⟨⟩⟩
      · rintro ⟨_, ⟨⟩⟩
  | ok answer =>
      obtain ⟨known, knows⟩ := Option.isSome_iff_exists.mp (knows answer)
      constructor
      · intro _
        exact ⟨answer, rfl⟩
      · intro _
        refine ⟨known, ?_⟩
        change afresh level (p.settle level r (form answer)) = .ok known
        rw [settle_known knows]
        rfl

/-- The instruction pointer of the caller can be read exactly if what its rule needs is there. -/
theorem caller_pc_iff (level : Nat) (cache : FrameCache)
    (decodes : p.unwinder.fromScratch level = .ok cache) :
    (∃ pc, afresh level (p.readRegister (level + 1) Amd64.rip) = .ok pc) ↔
      p.Provides level cache.cfa (cache.row.rule Amd64.rip) := by
  have asks := linux_asks linux
  have u := unwinder_asks asks
  have deeper := Nat.le_succ level
  have register (source : Register) :
      Steady p.unwinder.fromScratch (level + 1) (level + 1) (p.readRegister level source).run :=
    steady_mono (register_steady asks level source) deeper deeper
  have word (address : UInt64) : Steady p.unwinder.fromScratch (level + 1) (level + 1)
      ((p.unwinder.frame level).readAddress address).run :=
    steady_mono (asks_steady (asks_address address) (dependable asks level)) deeper deeper
  have evaluation (e : Expression) (want : Want) : Steady p.unwinder.fromScratch (level + 1) (level + 1)
      (p.unwinder.evaluator e (p.unwinder.frame level) (some cache.cfa) want).run :=
    steady_mono (asks_steady (u.evaluator e level _ want) (dependable asks level)) deeper deeper
  obtain ⟨pc, own⟩ := decoded_pc linux level cache decodes
  obtain ⟨direct, plain⟩ := decoded_rule linux level cache decodes Amd64.rip
  rw [caller_register linux level cache decodes]
  cases rule : cache.row.rule Amd64.rip with
  | unspecified => exact ⟨fun _ => trivial, fun _ => ⟨pc, own⟩⟩
  | undefined =>
      constructor
      · rintro ⟨_, ⟨⟩⟩
      · rintro ⟨⟩
  | sameValue =>
      have through := settle_through (r := Amd64.rip) (register Amd64.rip) .same fun _ => rfl
      exact ⟨fun _ => trivial, fun _ => through.mpr ⟨pc, own⟩⟩
  | savedAtOffset offset =>
      exact (settle_through (word _) (.inMemory _) fun _ => rfl).trans (read_word linux level _)
  | savedInRegister source => exact settle_through (register source) (.inRegister source) fun _ => rfl
  | savedByExpression e =>
      have stored (address : UInt64) : Steady p.unwinder.fromScratch (level + 1) (level + 1)
          ((p.unwinder.frame level).readAddress address >>= fun value =>
            pure (RegisterValue.inMemory address value)).run :=
        steady_unwind_bind (word address) fun _ => steady_pure _
      have applied := afresh_bind (evaluation e .address) stored
      simp only [Provides, evaluated]
      change (∃ pc, (afresh level (_ >>= _) >>= _) = _) ↔ _
      rw [applied]
      cases afresh level (p.unwinder.evaluator e (p.unwinder.frame level) (some cache.cfa) .address) with
      | error fault =>
          constructor
          · rintro ⟨_, ⟨⟩⟩
          · rintro ⟨_, ⟨⟩, -⟩
      | ok address =>
          refine (settle_through (word address) (.inMemory address) fun _ => rfl).trans ?_
          simp [read_word linux]
  | savedValueByExpression e => exact settle_through (evaluation e .value) .computed fun _ => rfl
  | savedValueAtOffset | cfaValue | cfaValueAtOffset =>
      exact ⟨fun _ => trivial, fun _ => ⟨_, rfl⟩⟩
  | callFunction name =>
      have silent : p.unwinder.arch.functions = Amd64.linux.functions := congrArg (·.functions) linux
      constructor
      · intro _
        trivial
      · intro _
        refine ⟨pc, ?_⟩
        change (afresh level (p.unwinder.arch.functions name _ _) >>= _) = _
        rw [silent]
        exact own
  | returnAddress => exact absurd rule direct
  | returnAddressAtOffset offset => exact absurd rule (plain offset)

theorem reaches_caller_iff (level : Nat) (cache : FrameCache)
    (decodes : p.unwinder.fromScratch level = .ok cache) :
    p.ReachesCaller level ↔ ∃ pc, afresh level (p.readRegister (level + 1) Amd64.rip) = .ok pc := by
  rw [caller_pc_iff linux level cache decodes, ReachesCaller]
  constructor
  · rintro ⟨other, decodes', provides⟩
    rw [decodes] at decodes'
    cases decodes'
    exact provides
  · intro provides
    exact ⟨cache, decodes, provides⟩

end StoppedProcess

/-! Stopping, and the frames of a backtrace. -/
namespace StoppedProcess

def stops (p : StoppedProcess) (level : Nat) : Option StopReason :=
  match p.unwinder.fromScratch level with
  | .ok cache => if cache.outermost then some .outermost else none
  | .error fault => some (.failed fault)

structure Tells (p : StoppedProcess) (level : Nat) (report : FrameReport) : Prop where
  about : report.level = level
  pc : report.pc = afresh level (p.readRegister level p.arch.pc)
  reason : report.reason = p.stops level

/-- The reports are about one frame after the other, and `limit + 1` frames at most. All but the last
have no reason to stop, and the last has one unless there is no room for more. -/
inductive Traced (p : StoppedProcess) : (level limit : Nat) → List FrameReport → Prop
  | ends {level limit : Nat} {report : FrameReport} (tells : p.Tells level report)
      (done : limit = 0 ∨ report.reason.isSome) : Traced p level limit [report]
  | goes {level limit : Nat} {report : FrameReport} {rest : List FrameReport}
      (tells : p.Tells level report) (reason : report.reason = none)
      (others : Traced p (level + 1) limit rest) : Traced p level (limit + 1) (report :: rest)

section Backtrace

variable {p : StoppedProcess} (asks : p.arch.AsksOnly)

include asks

theorem stop_reason_run (level : Nat) (session : Session)
    (sound : Sound p.unwinder.fromScratch session) (present : level < session.chain.size) :
    ((p.unwinder.stopReason level).run session).1 = p.stops level := by
  have answered := Unwinder.cache_answers (reliable asks level)
  rw [Unwinder.stopReason, SessionM.run_bind, (answered session sound).2.2 present, stops]
  cases p.unwinder.fromScratch level with
  | error fault => rfl
  | ok cache => rfl

theorem inspect_run (shown : List Register) (level : Nat) (session : Session)
    (sound : Sound p.unwinder.fromScratch session) (present : level < session.chain.size) :
    p.Tells level ((p.inspect shown level).run session).1 ∧
      Sound p.unwinder.fromScratch ((p.inspect shown level).run session).2 ∧
      ((p.inspect shown level).run session).2.chain.size = session.chain.size := by
  have deeper := Nat.le_succ level
  have register (r : Register) := steady_mono (register_steady asks level r) deeper deeper
  obtain ⟨_, pc⟩ := register p.arch.pc
  obtain ⟨_, kind⟩ := ask_steady asks level .frameKind
  obtain ⟨_, cfa⟩ := ask_steady asks level .computeCfa
  obtain ⟨_, id⟩ := ask_steady asks level .frameId
  obtain ⟨_, registers⟩ := steady_composes.map shown register
  obtain ⟨_, reason⟩ := ask_steady asks level .stopReason
  obtain ⟨sound₁, grows₁, -⟩ := pc session sound
  obtain ⟨sound₂, grows₂, -⟩ := kind _ sound₁
  obtain ⟨sound₃, grows₃, -⟩ := cfa _ sound₂
  obtain ⟨sound₄, grows₄, -⟩ := id _ sound₃
  obtain ⟨sound₅, grows₅, -⟩ := registers _ sound₄
  obtain ⟨sound₆, grows₆, -⟩ := reason _ sound₅
  have grows := ((((grows₁.trans grows₂).trans grows₃).trans grows₄).trans grows₅)
  refine ⟨⟨rfl, ?_, ?_⟩, sound₆, (grows.trans grows₆).size⟩
  · exact steady_afresh (register p.arch.pc) sound present
  · exact stop_reason_run asks level _ sound₅ (grows.size.symm ▸ present)

omit asks in
theorem backtrace_run (shown : List Register) (limit : Nat) (session : Session) :
    ((p.backtrace shown (limit + 1)).run session).1 =
      let inspected := (p.inspect shown session.chain.outermost).run session
      let pushed := p.perform inspected.2 .pushCaller
      if inspected.1.reason.isSome then [inspected.1]
      else inspected.1 :: ((p.backtrace shown limit).run pushed).1 := by
  rw [backtrace, SessionM.run_bind]
  change ((p.inspect shown session.chain.outermost >>= _).run session).1 = _
  rw [SessionM.run_bind]
  dsimp only
  split <;> rfl

theorem backtrace_traced (shown : List Register) (limit : Nat) (session : Session)
    (sound : Sound p.unwinder.fromScratch session) :
    p.Traced session.chain.outermost limit ((p.backtrace shown limit).run session).1 := by
  induction limit generalizing session with
  | zero =>
      obtain ⟨tells, -⟩ := inspect_run asks shown session.chain.outermost session sound
        (Nat.lt_succ_self _)
      exact .ends tells (.inl rfl)
  | succ limit ih =>
      obtain ⟨tells, after, size⟩ := inspect_run asks shown session.chain.outermost session sound
        (Nat.lt_succ_self _)
      rw [backtrace_run]
      dsimp only
      split
      next stopped => exact .ends tells (.inr stopped)
      next unstopped =>
        have next := ih _ (perform_sound asks .pushCaller _ after)
        have outer : (p.perform ((p.inspect shown session.chain.outermost).run session).2
            .pushCaller).chain.outermost = session.chain.outermost + 1 := by
          simpa [perform, FrameChain.pushCaller, FrameChain.outermost, FrameChain.size] using size
        rw [outer] at next
        exact .goes tells (Option.not_isSome_iff_eq_none.mp unstopped) next

end Backtrace

theorem stops_none {p : StoppedProcess} {level : Nat} (goes : p.stops level = none) :
    ∃ cache, p.unwinder.fromScratch level = .ok cache := by
  unfold stops at goes
  split at goes
  next cache decodes => exact ⟨cache, decodes⟩
  next => cases goes

-- A register of the caller is the same to an innermost part of the chain and to all of it.
theorem afresh_succ {p : StoppedProcess} (asks : p.arch.AsksOnly) (level : Nat) (r : Register) :
    afresh (level + 1) (p.readRegister (level + 1) r) = afresh level (p.readRegister (level + 1) r) := by
  apply steady_afresh (register_steady asks (level + 1) r) (Session.fresh_sound _ (level + 1))
  rw [Session.fresh_size]
  omega

section Traced

variable {p : StoppedProcess} {level limit : Nat} {reports : List FrameReport}

theorem traced_nonempty (traced : p.Traced level limit reports) : reports ≠ [] := by
  cases traced <;> simp

theorem traced_marked (traced : p.Traced level limit reports) :
    (∀ report ∈ reports.dropLast, report.reason = none) ∧
      (reports.length ≤ limit → ∃ last, reports.getLast? = some last ∧ last.reason.isSome) := by
  induction traced with
  | ends tells done =>
      refine ⟨by simp, fun short => ⟨_, rfl, ?_⟩⟩
      rcases done with none_left | stopped
      · rw [none_left] at short
        cases short
      · exact stopped
  | goes tells reason others ih =>
      obtain ⟨unstopped, stopped⟩ := ih
      have more := traced_nonempty others
      constructor
      · intro report member
        rw [List.dropLast_cons_of_ne_nil more] at member
        rcases List.mem_cons.mp member with rfl | member
        · exact reason
        · exact unstopped report member
      · intro short
        obtain ⟨last, isLast, marked⟩ := stopped (Nat.le_of_succ_le_succ short)
        refine ⟨last, ?_, marked⟩
        rw [List.getLast?_cons, isLast]
        rfl

theorem traced_readable (linux : p.arch = Amd64.linux) (traced : p.Traced level limit reports) :
    (∀ report ∈ reports, ∃ pc, report.pc = .ok pc) ↔
      (∃ pc, afresh level (p.readRegister level Amd64.rip) = .ok pc) ∧
        ∀ i, i + 1 < reports.length → p.ReachesCaller (level + i) := by
  have column : p.arch.pc = Amd64.rip := congrArg (·.pc) linux
  induction traced with
  | ends tells done =>
      simp [tells.pc, column]
  | @goes level limit report rest tells reason others ih =>
      obtain ⟨cache, decodes⟩ := stops_none (tells.reason.symm.trans reason)
      have reached := reaches_caller_iff linux level cache decodes
      rw [← afresh_succ (linux_asks linux)] at reached
      refine List.forall_mem_cons.trans ((and_congr Iff.rfl ih).trans ?_)
      rw [← reached, tells.pc, column]
      have more := List.length_pos_iff.mpr (traced_nonempty others)
      simp only [List.length_cons]
      constructor
      · rintro ⟨own, first, later⟩
        refine ⟨own, fun i inside => ?_⟩
        cases i with
        | zero => exact first
        | succ i =>
            rw [Nat.add_comm i 1, ← Nat.add_assoc]
            exact later i (Nat.lt_of_succ_lt_succ inside)
      · rintro ⟨own, all⟩
        refine ⟨own, all 0 (Nat.succ_lt_succ more), fun i inside => ?_⟩
        rw [Nat.add_assoc, Nat.add_comm 1 i]
        exact all (i + 1) (Nat.succ_lt_succ inside)

end Traced

end StoppedProcess

open StoppedProcess in
/-- Where a frame gives no reason to stop, the instruction pointer of its caller can be read exactly if
what its rule needs is there. So a backtrace reads all instruction pointers exactly if the live one is
there and all frames but the last provide that; it goes on past no frame with a reason to stop, and
ends with one unless it is cut off. -/
theorem caller_reach_exact (machine : Machine) (cfi : CfiTable) :
    let p : StoppedProcess := { machine, arch := Amd64.linux, cfi }
    (∀ operations level,
      let session := p.after operations
      session.chain.contains level = true →
      ((p.unwinder.stopReason level).run session).1 = none →
      ((∃ pc, ((p.readRegister (level + 1) Amd64.rip).run.run session).1 = .ok pc) ↔
        p.ReachesCaller level)) ∧
    ∀ shown limit,
      let reports := ((p.backtrace shown limit).run {}).1
      ((∀ report ∈ reports, ∃ pc, report.pc = .ok pc) ↔
        (∃ pc, machine.register? Amd64.rip = some pc) ∧
          ∀ level, level + 1 < reports.length → p.ReachesCaller level) ∧
      (∀ report ∈ reports.dropLast, report.reason = none) ∧
      (reports.length ≤ limit → ∃ last, reports.getLast? = some last ∧ last.reason.isSome) := by
  intro p
  have asks : p.arch.AsksOnly := amd64_linux_asks
  constructor
  · intro operations level session present unstopped
    have sound : Sound p.unwinder.fromScratch session := after_sound asks operations
    have inside : level < session.chain.size := of_decide_eq_true present
    rw [stop_reason_run asks level session sound inside] at unstopped
    obtain ⟨cache, decodes⟩ := stops_none unstopped
    rw [reaches_caller_iff rfl level cache decodes]
    rw [steady_afresh (register_steady asks (level + 1) Amd64.rip) sound inside]
  · intro shown limit reports
    have traced : p.Traced 0 limit reports :=
      backtrace_traced asks shown limit {} (Session.fresh_sound _ 0)
    have live : (∃ pc, afresh 0 (p.readRegister 0 Amd64.rip) = .ok pc) ↔
        ∃ pc, machine.register? Amd64.rip = some pc := by
      simp only [readRegister, registersTo, StoppedProcess.live, p]
      cases machine.register? Amd64.rip with
      | none =>
          constructor
          · rintro ⟨_, ⟨⟩⟩
          · rintro ⟨_, ⟨⟩⟩
      | some pc => exact ⟨fun _ => ⟨pc, rfl⟩, fun _ => ⟨pc, rfl⟩⟩
    refine ⟨?_, traced_marked traced⟩
    rw [← live]
    simpa using traced_readable rfl traced

-- The return address is on the stack, and so its word is all that the caller takes to be reached.
theorem caller_reach_called :
    let p := calledProcess (({} : Machine).writeWord 0x7000 0x1020).memory
    let session := p.after [.pushCaller]
    session.chain.contains 0 = true ∧ ((p.unwinder.stopReason 0).run session).1 = none ∧
      p.ReachesCaller 0 ∧ p.HasWord 0x7000 ∧ ((p.backtrace [] 1).run {}).1.length = 2 ∧
      ∀ report ∈ ((p.backtrace [] 1).run {}).1, ∃ pc, report.pc = .ok pc := by
  intro p session
  obtain ⟨frames, traces⟩ := caller_reach_exact p.machine p.cfi
  have present : session.chain.contains 0 = true := by decide +kernel
  have unstopped : ((p.unwinder.stopReason 0).run session).1 = none := by decide +kernel
  have read : ((p.readRegister 1 Amd64.rip).run.run session).1.toOption = some 0x1020 := by
    decide +kernel
  have reaches : p.ReachesCaller 0 := by
    exact (frames [.pushCaller] 0 present unstopped).mp ⟨0x1020, ok_of_to_option read⟩
  have two : ((p.backtrace [] 1).run {}).1.length = 2 := by decide +kernel
  refine ⟨present, unstopped, reaches, ⟨_, rfl⟩, two, (traces [] 1).1.mpr ⟨⟨0x1010, rfl⟩, ?_⟩⟩
  intro level inside
  have innermost : level = 0 := by
    change level + 1 < ((p.backtrace [] 1).run {}).1.length at inside
    omega
  rw [innermost]
  exact reaches

-- Without that word there is no reason to stop either, but the caller's instruction pointer cannot be
-- read.
theorem caller_lost_without_reason :
    let p := calledProcess {}
    let session := p.after [.pushCaller]
    session.chain.contains 0 = true ∧ ((p.unwinder.stopReason 0).run session).1 = none ∧
      (∀ pc, ((p.readRegister 1 Amd64.rip).run.run session).1 ≠ .ok pc) ∧
      p.machine.register? Amd64.rip = some 0x1010 ∧
      ¬ ∀ report ∈ ((p.backtrace [] 1).run {}).1, ∃ pc, report.pc = .ok pc := by
  intro p session
  have failed : ((p.readRegister 1 Amd64.rip).run.run session).1.toOption = none := by
    decide +kernel
  have lost : (((p.backtrace [] 1).run {}).1.all fun report => report.pc.toOption.isSome) = false := by
    decide +kernel
  refine ⟨by decide +kernel, by decide +kernel, ?_, rfl, ?_⟩
  · intro pc read
    rw [read] at failed
    cases failed
  · intro all
    have found : (((p.backtrace [] 1).run {}).1.all fun report => report.pc.toOption.isSome) = true := by
      rw [List.all_eq_true]
      intro report member
      obtain ⟨pc, read⟩ := all report member
      rw [read]
      rfl
    rw [lost] at found
    cases found

end CallFrame
