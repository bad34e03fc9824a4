import CallFrame.Proofs.CallerReach

/-!
Registers that no program mentions. Before any program runs the stack pointer is the frame address, the
instruction pointer is the return address, and nothing is said about the other registers. What the
programs of a frame do not change is still so afterwards. So its caller had the frame address as stack
pointer, and the other registers as they are; and those that no program has changed on the way have
their values from the stopped machine.
-/

namespace CallFrame

/-! Rows of an architecture with the usual rules. -/
section Usual

def usualRule (target : Target) (r : Register) : RegisterRule :=
  if r = target.pc then .returnAddress
  else if r = target.sp then .cfaValue
  else .unspecified

variable {target : Target} {entry : CfiEntry} {initReg : Register → RegisterRule}

def Usual (target : Target) (entry : CfiEntry) (initReg : Register → RegisterRule) : Prop :=
  ∀ r, r.number.toNat < entry.seedCount target → initReg r = usualRule target r

theorem seed_count_covers (r : Register) (machine : r.number.toNat < target.numRegs.toNat) :
    r.number.toNat < entry.seedCount target := by
  unfold CfiEntry.seedCount
  split
  · exact Nat.lt_of_lt_of_le machine (Nat.le_max_left _ _)
  · exact machine

theorem usual_stack_pointer (usual : Usual target entry initReg)
    (machine : target.sp.number.toNat < target.numRegs.toNat) (apart : target.sp ≠ target.pc) (pc : UInt64)
    (untouched : ¬ entry.Gives target target.sp) :
    (execute target entry initReg pc).1.row.rule target.sp = .cfaValue := by
  have inside : target.sp.number.toNat < entry.seedCount target := seed_count_covers target.sp machine
  rw [execute_untouched target.sp untouched, seed_rule initReg target.sp inside, seedRule, usual _ inside,
    usualRule, if_neg apart, if_pos rfl]

-- The return address column is unchanged where nothing is said about it.
theorem usual_preserved (usual : Usual target entry initReg) (r : Register) (notPc : r ≠ target.pc)
    (notSp : r ≠ target.sp) (pc : UInt64) (untouched : ¬ entry.Gives target r) :
    (execute target entry initReg pc).1.row.rule r = .unspecified ∨
      (execute target entry initReg pc).1.row.rule r = .sameValue := by
  rw [execute_untouched r untouched]
  by_cases inside : r.number.toNat < entry.seedCount target
  · rw [seed_rule initReg r inside, seedRule, usual r inside, usualRule, if_neg notPc, if_neg notSp]
    dsimp only
    split
    · exact .inr rfl
    · exact .inl rfl
  · exact .inl (seed_outside r inside)

theorem usual_rules_run (arch : Arch) (installed : arch.initReg = some usualInitReg) (frame : Frame)
    (sameTarget : frame.target = arch.toTarget) (count : Nat) :
    arch.initialRules frame count =
      pure ((List.range count).map fun column => usualRule arch.toTarget ⟨column.toUInt16⟩).toArray := by
  simp only [Arch.initialRules, installed, usualInitReg, List.mapM_pure, pure_bind, sameTarget]
  rfl

theorem usual_executed (o : Occasion) (level : Nat)
    (installed : o.unwinder.arch.initReg = some usualInitReg) (located : Located) (unwound : UnwindRow)
    (locating : o.located level = .ok located) (row : o.interpreted level = .ok unwound) :
    ∃ initReg, Usual o.unwinder.arch.toTarget located.entry initReg ∧
      unwound = (execute o.unwinder.arch.toTarget located.entry initReg located.lookupPc).1 := by
  obtain ⟨located', after, locating', row⟩ := UnwindM.bind_ok row
  have same : located' = located := by
    rw [Occasion.located, locating'] at locating
    exact Except.ok.inj locating
  subst same
  rw [UnwindM.run_lift, Unwinder.interpret, usual_rules_run _ installed _ rfl] at row
  refine ⟨_, ?_, (Except.ok.inj row).symm⟩
  intro r inside
  have number : (r.number.toNat).toUInt16 = r.number := UInt16.ofNat_toNat
  simp [Array.getD_eq_getD_getElem?, inside, number]

end Usual

namespace StoppedProcess

variable {p : StoppedProcess} (linux : p.arch = Amd64.linux)

def Gives (p : StoppedProcess) (session : Session) (level : Nat) (r : Register) : Prop :=
  ∃ located, ((p.unwinder.locate level).run.run session).1 = .ok located ∧
    located.entry.Gives p.arch.toTarget r

def Decodes (p : StoppedProcess) (session : Session) (level : Nat) : Prop :=
  ∃ cache, ((p.unwinder.cache level).run.run session).1 = .ok cache

section Frame

variable {level : Nat} {cache : FrameCache} (decodes : p.unwinder.fromScratch level = .ok cache)

include linux decodes

-- A rule that is not the return address is as the programs have left it.
theorem decoded_usual (r : Register) (untouched : ¬ p.Gives (Session.fresh level) level r) :
    ∃ entry initReg pc, ¬ entry.Gives Amd64.linux.toTarget r ∧ Usual Amd64.linux.toTarget entry initReg ∧
      ((execute Amd64.linux.toTarget entry initReg pc).1.row.rule r ≠ .returnAddress →
        cache.row.rule r = (execute Amd64.linux.toTarget entry initReg pc).1.row.rule r) := by
  let o : Occasion := ⟨p.unwinder, Session.fresh level⟩
  have target : o.unwinder.arch = Amd64.linux := linux
  obtain ⟨located, unwound, cfa, locating, row, -, rfl⟩ := o.decoded_ok level cache decodes
  obtain ⟨initReg, usual, rfl⟩ :=
    usual_executed o level (congrArg (·.initReg) target) located unwound locating row
  rw [target] at usual
  refine ⟨located.entry, initReg, located.lookupPc, ?_, usual, ?_⟩
  · intro gives
    exact untouched ⟨located, locating, linux ▸ gives⟩
  · intro other
    rw [← target] at other ⊢
    exact (Unwinder.rule_follow_return _ _ r).trans (if_neg other)

theorem decoded_stack_pointer (untouched : ¬ p.Gives (Session.fresh level) level Amd64.rsp) :
    cache.row.rule Amd64.rsp = .cfaValue := by
  obtain ⟨entry, initReg, pc, untouched, usual, same⟩ := decoded_usual linux decodes _ untouched
  have rule := usual_stack_pointer usual (by decide) (by decide) pc untouched
  rw [← rule]
  apply same
  change (execute Amd64.linux.toTarget entry initReg pc).1.row.rule Amd64.linux.sp ≠ _
  rw [rule]
  rintro ⟨⟩

theorem decoded_preserved (r : Register) (notPc : r ≠ Amd64.rip) (notSp : r ≠ Amd64.rsp)
    (untouched : ¬ p.Gives (Session.fresh level) level r) :
    cache.row.rule r = .unspecified ∨ cache.row.rule r = .sameValue := by
  obtain ⟨entry, initReg, pc, untouched, usual, same⟩ := decoded_usual linux decodes r untouched
  rcases usual_preserved usual r notPc notSp pc untouched with rule | rule <;> rw [rule] at same
  · exact .inl (same (by rintro ⟨⟩))
  · exact .inr (same (by rintro ⟨⟩))

/-- The caller had the frame address as its stack pointer. -/
theorem caller_stack_pointer (untouched : ¬ p.Gives (Session.fresh level) level Amd64.rsp) :
    afresh level (p.readRegister (level + 1) Amd64.rsp) = .ok cache.cfa := by
  rw [caller_register linux level cache decodes, decoded_stack_pointer linux decodes untouched]
  rfl

/-- The caller had what the frame has in the register. -/
theorem caller_preserved (r : Register) (notPc : r ≠ Amd64.rip) (notSp : r ≠ Amd64.rsp)
    (untouched : ¬ p.Gives (Session.fresh level) level r) :
    afresh level (p.readRegister (level + 1) r) = afresh level (p.readRegister level r) := by
  have deeper := Nat.le_succ level
  have own : Steady p.unwinder.fromScratch (level + 1) (level + 1) (p.readRegister level r).run :=
    steady_mono (register_steady (linux_asks linux) level r) deeper deeper
  have formed (value : UInt64) : Steady p.unwinder.fromScratch (level + 1) (level + 1)
      (pure (RegisterValue.same value) : UnwindM RegisterValue).run := steady_pure _
  rw [caller_register linux level cache decodes]
  rcases decoded_preserved linux decodes r notPc notSp untouched with rule | rule <;> rw [rule]
  · rfl
  · change (afresh level (p.readRegister level r >>= fun value => pure (RegisterValue.same value)) >>= _) = _
    rw [afresh_bind own formed]
    cases afresh level (p.readRegister level r) <;> rfl

end Frame

include linux

/-- A register that no frame inside has changed is still as the machine has it. -/
theorem outward_live (r : Register) (notPc : r ≠ Amd64.rip) (notSp : r ≠ Amd64.rsp) (level : Nat)
    (decodes : ∀ inner ≤ level, ∃ cache, p.unwinder.fromScratch inner = .ok cache)
    (untouched : ∀ inner ≤ level, ¬ p.Gives (Session.fresh inner) inner r) (session : Session) :
    afresh level (p.readRegister (level + 1) r) = ((p.live r).run.run session).1 := by
  obtain ⟨cache, decoded⟩ := decodes level (Nat.le_refl level)
  rw [caller_preserved linux decoded r notPc notSp (untouched level (Nat.le_refl level))]
  induction level generalizing cache with
  | zero =>
      unfold readRegister registersTo live
      cases p.machine.register? r <;> rfl
  | succ level ih =>
      have inside {inner : Nat} (within : inner ≤ level) : inner ≤ level + 1 := Nat.le_succ_of_le within
      have untouched' := untouched level (Nat.le_succ level)
      obtain ⟨cache', decoded'⟩ := decodes level (Nat.le_succ level)
      rw [afresh_succ (linux_asks linux), caller_preserved linux decoded' r notPc notSp untouched']
      exact ih (fun inner within => decodes inner (inside within))
        (fun inner within => untouched inner (inside within)) cache' decoded'

omit linux in
theorem decodes_present {session : Session} {level : Nat} (decodes : p.Decodes session level) :
    level < session.chain.size := by
  obtain ⟨cache, decoded⟩ := decodes
  apply Nat.lt_of_not_le
  intro absent
  rw [Unwinder.cache_eq_once, Unwinder.once_run, (session.chain.slot_none level).mpr absent] at decoded
  cases decoded

variable {session : Session} (sound : Sound p.unwinder.fromScratch session) {level : Nat}

include sound

theorem decodes_from_scratch (decodes : p.Decodes session level) :
    ∃ cache, p.unwinder.fromScratch level = .ok cache ∧
      ((p.unwinder.computeCfa level).run.run session).1 = .ok cache.cfa := by
  have present := decodes_present decodes
  obtain ⟨cache, decoded⟩ := decodes
  have asked : ((p.unwinder.computeCfa level).run.run session).1 = .ok cache.cfa := by
    rw [Unwinder.computeCfa, UnwindM.run_bind]
    rcases answer : (p.unwinder.cache level).run.run session with ⟨result, after⟩
    rw [answer] at decoded
    cases decoded
    rfl
  have asks := linux_asks linux
  have answered := Unwinder.cache_answers (reliable asks level)
  rw [(answered session sound).2.2 present] at decoded
  exact ⟨cache, decoded, asked⟩

theorem gives_afresh (present : level < session.chain.size) (r : Register) :
    p.Gives session level r ↔ p.Gives (Session.fresh level) level r := by
  have asks := linux_asks linux
  have located := Unwinder.locate_steady (reliable asks level)
  unfold Gives
  rw [steady_afresh located sound present]
  rfl

end StoppedProcess

/-- Let the frames up to some level be there and decoded, after any operations on the frames of a process
of the usual 64-bit architecture. If no program of the outermost of them gives the stack pointer a rule,
its caller had its frame address as stack pointer. And a register other than the stack pointer and the
instruction pointer that no program of any of them gives a rule is read in that caller as it is in the
machine. -/
theorem registers_flow_outward (p : StoppedProcess) (linux : p.arch = Amd64.linux)
    (operations : List Operation) (level : Nat)
    (decodes : ∀ inner ≤ level, p.Decodes (p.after operations) inner) :
    let session := p.after operations
    (¬ p.Gives session level Amd64.rsp →
      ∃ cfa, ((p.unwinder.computeCfa level).run.run session).1 = .ok cfa ∧
        ((p.readRegister (level + 1) Amd64.rsp).run.run session).1 = .ok cfa) ∧
    ∀ r, r ≠ Amd64.rsp → r ≠ Amd64.rip → (∀ inner ≤ level, ¬ p.Gives session inner r) →
      ((p.readRegister (level + 1) r).run.run session).1 = ((p.live r).run.run session).1 := by
  intro session
  have asks := StoppedProcess.linux_asks linux
  have sound : Sound p.unwinder.fromScratch session := StoppedProcess.after_sound asks operations
  have present {inner : Nat} (within : inner ≤ level) : inner < session.chain.size :=
    StoppedProcess.decodes_present (decodes inner within)
  have here := present (Nat.le_refl level)
  have read (r : Register) : ((p.readRegister (level + 1) r).run.run session).1 =
      afresh level (p.readRegister (level + 1) r) :=
    steady_afresh (StoppedProcess.register_steady asks (level + 1) r) sound here
  have scratch (inner : Nat) (within : inner ≤ level) :=
    StoppedProcess.decodes_from_scratch linux sound (decodes inner within)
  constructor
  · intro untouched
    rw [StoppedProcess.gives_afresh linux sound here] at untouched
    obtain ⟨cache, decoded, asked⟩ := scratch level (Nat.le_refl level)
    refine ⟨cache.cfa, asked, ?_⟩
    rw [read, StoppedProcess.caller_stack_pointer linux decoded untouched]
  · intro r notSp notPc untouched
    rw [read]
    apply StoppedProcess.outward_live linux r notPc notSp level
    · intro inner within
      obtain ⟨cache, decoded, -⟩ := scratch inner within
      exact ⟨cache, decoded⟩
    intro inner within
    rw [← StoppedProcess.gives_afresh linux sound (present within)]
    exact untouched inner within

-- The function was called from itself. Its programs only say where the return address is, so that the
-- base pointer is the same in all frames, and each has the frame address of the one inside as stack
-- pointer.
theorem registers_flow_outward_called :
    let called := calledProcess (({} : Machine).writeWord 0x7000 0x1020).memory
    let p := { called with machine := called.machine.setRegister Amd64.rbp (some 0x7ff0) }
    let session := p.after [.pushCaller]
    p.arch = Amd64.linux ∧ (∀ inner ≤ 1, p.Decodes session inner) ∧
      (∀ r, r ≠ Amd64.rip → ∀ inner ≤ 1, ¬ p.Gives session inner r) ∧
      ((p.readRegister 2 Amd64.rsp).run.run session).1 = .ok 0x7010 ∧
      ((p.readRegister 2 Amd64.rbp).run.run session).1 = .ok 0x7ff0 ∧
      ((p.readRegister 2 ⟨3⟩).run.run session).1 = .error (.registerNotLive ⟨3⟩) := by
  intro called p session
  have linux : p.arch = Amd64.linux := rfl
  have decodes : ∀ inner ≤ 1, p.Decodes session inner := by
    have succeed : ∀ inner < 2, ((p.unwinder.cache inner).run.run session).1.toOption.isSome := by
      decide +kernel
    intro inner within
    obtain ⟨cache, found⟩ := Option.isSome_iff_exists.mp (succeed inner (Nat.lt_succ_of_le within))
    exact ⟨cache, ok_of_to_option found⟩
  have programs : ∀ inner < 2, (((p.unwinder.locate inner).run.run session).1.toOption.map fun located =>
      (located.entry.initialProgram ++ located.entry.program).map Except.toOption) =
        some [some (.defCfa 7 8), some (.offset 16 1)] := by
    decide +kernel
  have untouched : ∀ r, r ≠ Amd64.rip → ∀ inner ≤ 1, ¬ p.Gives session inner r := by
    rintro r other inner within ⟨located, locating, instruction, member, gives⟩
    have decoded := programs inner (Nat.lt_succ_of_le within)
    rw [locating] at decoded
    have listed : some instruction ∈ [some (Instruction.defCfa 7 8), some (.offset 16 1)] := by
      rw [← Option.some.inj decoded]
      exact List.mem_map_of_mem member
    simp only [List.mem_cons, Option.some.injEq, List.not_mem_nil, or_false] at listed
    rcases listed with rfl | rfl
    · exact gives
    · exact other (Except.ok.inj gives).symm
  obtain ⟨stack, others⟩ := registers_flow_outward p linux [.pushCaller] 1 decodes
  obtain ⟨cfa, asked, read⟩ := stack (untouched _ (by decide) 1 (Nat.le_refl 1))
  have address : ((p.unwinder.computeCfa 1).run.run session).1 = .ok 0x7010 :=
    ok_of_to_option (by decide +kernel)
  have same : cfa = 0x7010 := Except.ok.inj (asked.symm.trans address)
  refine ⟨linux, decodes, untouched, same ▸ read, ?_, ?_⟩
  · rw [others Amd64.rbp (by decide) (by decide) (untouched _ (by decide))]
    rfl
  · rw [others ⟨3⟩ (by decide) (by decide) (untouched _ (by decide))]
    rfl

end CallFrame
