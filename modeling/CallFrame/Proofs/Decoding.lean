import CallFrame.Unwinder

/-!
What decoding a frame comes to. The slot of a frame is filled on one occasion, by one unwinder in one
session, and later questions are answered from it. So a fact about an answer is a fact about the
occasion on which the frame was decoded: the program counter that was read then, what the
architecture said then, and the function that was found.
-/

namespace CallFrame

/-! Running computations over a session. -/
section Runs

theorem SessionM.run_bind (m : SessionM α) (follow : α → SessionM β) (session : Session) :
    (m >>= follow).run session = (follow (m.run session).1).run (m.run session).2 := rfl

-- Stated for the bare computation, so that it rewrites behind every spelling of a run.
theorem UnwindM.run_bind (m : UnwindM α) (follow : α → UnwindM β) (session : Session) :
    (m >>= follow).run.run session =
      match m.run.run session with
      | (.ok value, after) => (follow value).run.run after
      | (.error fault, after) => (.error fault, after) := by
  change (ExceptT.bindCont follow (m.run.run session).1).run (m.run.run session).2 = _
  rcases m.run.run session with ⟨result, after⟩
  cases result <;> rfl

theorem UnwindM.bind_ok {m : UnwindM α} {follow : α → UnwindM β} {session : Session} {result : β}
    (whole : ((m >>= follow).run.run session).1 = .ok result) :
    ∃ value after, m.run.run session = (.ok value, after) ∧
      ((follow value).run.run after).1 = .ok result := by
  rw [UnwindM.run_bind] at whole
  rcases step : m.run.run session with ⟨fault | value, after⟩
  · rw [step] at whole
    cases whole
  · rw [step] at whole
    exact ⟨value, after, rfl, whole⟩

theorem UnwindM.run_get (session : Session) :
    (get : UnwindM Session).run.run session = (.ok session, session) := rfl

theorem UnwindM.run_modify (change : Session → Session) (session : Session) :
    (modify change : UnwindM Unit).run.run session = (.ok (), change session) := rfl

theorem UnwindM.run_lift (m : SessionM α) (session : Session) :
    (liftM m : UnwindM α).run.run session = (.ok (m.run session).1, (m.run session).2) := rfl

theorem UnwindM.run_except (result : Except Fault α) (session : Session) :
    (liftM result : UnwindM α).run.run session = (result, session) := by
  cases result <;> rfl

-- Results have no decidable equality, so a sample is tried on what is left of them without the fault.
theorem ok_of_to_option {result : Except Fault α} {value : α} (found : result.toOption = some value) :
    result = .ok value := by
  cases result <;> cases found
  rfl

namespace Unwinder

theorem once_run (level : Nat) (compute : UnwindM FrameCache) (session : Session) :
    (once level compute).run.run session =
      match session.chain.slot? level with
      | none => (.error (.noFrame level), session)
      | some (some known) => (known, session)
      | some none =>
        let done := compute.run.run (session.withDecoding level)
        (done.1, { done.2 with chain := done.2.chain.fill done.1 level }) := by
  rw [once, UnwindM.run_bind, UnwindM.run_get]
  dsimp only
  rcases session.chain.slot? level with _ | _ | known
  · rfl
  · dsimp only
    rw [UnwindM.run_bind, UnwindM.run_modify]
    dsimp only
    change (liftM (compute.run.run (session.withDecoding level)).1 : UnwindM FrameCache).run.run
      { (compute.run.run (session.withDecoding level)).2 with
        chain := (compute.run.run (session.withDecoding level)).2.chain.fill
          (compute.run.run (session.withDecoding level)).1 level } = _
    exact UnwindM.run_except _ _
  · exact UnwindM.run_except known session

theorem cache_eq_once (u : Unwinder) (level : Nat) :
    u.cache level = once level (u.decode level) := by
  cases level <;> rfl

end Unwinder

end Runs

/-- An occasion to look at frames: an unwinder, and the session in which it is asked. -/
structure Occasion where
  unwinder : Unwinder
  session : Session

namespace Occasion

variable (o : Occasion) (level : Nat)

def pc : Except Fault UInt64 := ((o.unwinder.frame level).pc.run.run o.session).1

def afterPc : Session := ((o.unwinder.frame level).pc.run.run o.session).2

/-- Whether the architecture then recognizes the frame as a signal trampoline. It is asked after the
program counter was read. -/
def recognized : Bool :=
  ((o.unwinder.arch.isSignalFrame (o.unwinder.frame level)).run (o.afterPc level)).1

def afterHook : Session :=
  ((o.unwinder.arch.isSignalFrame (o.unwinder.frame level)).run (o.afterPc level)).2

def located : Except Fault Located := ((o.unwinder.locate level).run.run o.session).1

def interpreted : Except Fault UnwindRow :=
  let interpreting : UnwindM UnwindRow := do
    o.unwinder.interpret level (← o.unwinder.locate level)
  (interpreting.run.run o.session).1

def decoded : Except Fault FrameCache := ((o.unwinder.decode level).run.run o.session).1

/-- The slot of the frame was filled on this occasion, or is empty and will be filled when the
unwinder asks for it now. -/
def Fills (u : Unwinder) (session : Session) : Prop :=
  match session.chain.slot? level with
  | none => False
  | some none => o = ⟨u, session.withDecoding level⟩
  | some (some result) => o.decoded level = result

theorem cache_decoded (u : Unwinder) (session : Session) (fills : o.Fills level u session) :
    ((u.cache level).run.run session).1 = o.decoded level := by
  rw [Unwinder.cache_eq_once, Unwinder.once_run]
  rw [Fills] at fills
  cases slot : session.chain.slot? level with
  | none => simp [slot] at fills
  | some slot' =>
      cases slot' with
      | none =>
          simp only [slot] at fills
          subst fills
          rfl
      | some known =>
          simp only [slot] at fills
          exact fills.symm

/-- Finding the function of the frame, and what it leaves behind, by what is asked one after another. -/
theorem locate_with_run (exact : SessionM Bool) :
    (o.unwinder.locateWith exact level).run.run o.session =
      if !o.unwinder.arch.dwarfCfi then (.error (.unwindingDisabled o.unwinder.arch.name), o.session)
      else if !o.session.chain.contains level then (.error (.noFrame level), o.session)
      else match o.pc level with
        | .error fault => (.error fault, o.afterPc level)
        | .ok pc =>
          let decided := if o.recognized level then (true, o.afterHook level)
            else exact.run (o.afterHook level)
          (o.unwinder.functionAt (o.recognized level) (if decided.1 then pc else pc - 1), decided.2) := by
  unfold pc Unwinder.locateWith
  cases o.unwinder.arch.dwarfCfi with
  | false => rfl
  | true =>
      simp only [Bool.not_true, Bool.false_eq_true, ↓reduceIte]
      rw [UnwindM.run_bind, UnwindM.run_get]
      cases present : o.session.chain.contains level with
      | false =>
          simp only [present]
          rfl
      | true =>
          simp only [present, Bool.not_true, Bool.false_eq_true, ↓reduceIte]
          rw [UnwindM.run_bind]
          unfold recognized afterHook afterPc
          rcases (o.unwinder.frame level).pc.run.run o.session with ⟨fault | pc, after⟩
          · rfl
          simp only [UnwindM.run_bind, UnwindM.run_lift, UnwindM.run_except]
          split <;> rfl

theorem located_eq :
    o.located level =
      if !o.unwinder.arch.dwarfCfi then .error (.unwindingDisabled o.unwinder.arch.name)
      else if !o.session.chain.contains level then .error (.noFrame level)
      else match o.pc level with
        | .error fault => .error fault
        | .ok pc =>
          let exact := if o.recognized level then true
            else ((o.unwinder.exactPc level).run (o.afterHook level)).1
          o.unwinder.functionAt (o.recognized level) (if exact then pc else pc - 1) := by
  rw [located, Unwinder.locate, locate_with_run]
  split
  · rfl
  split
  · rfl
  cases o.pc level with
  | error fault => rfl
  | ok pc => cases o.recognized level <;> rfl

theorem located_ok (located : Located) (found : o.located level = .ok located) :
    ∃ pc address, o.pc level = .ok pc ∧
      o.unwinder.functionAt (o.recognized level) address = .ok located := by
  rw [located_eq] at found
  split at found
  · cases found
  split at found
  · cases found
  split at found
  · cases found
  next pc readable => exact ⟨pc, _, readable, found⟩

theorem decoded_ok (cache : FrameCache) (found : o.decoded level = .ok cache) :
    ∃ located unwound cfa, o.located level = .ok located ∧ o.interpreted level = .ok unwound ∧
      unwound.row.cfa.isSome ∧ cache = Unwinder.frameCache located unwound cfa := by
  obtain ⟨located, after, locating, found⟩ := UnwindM.bind_ok found
  obtain ⟨unwound, after', interpreting, found⟩ := UnwindM.bind_ok found
  obtain ⟨_, _, _, found⟩ := UnwindM.bind_ok found
  obtain ⟨cfa, _, evaluating, found⟩ := UnwindM.bind_ok found
  refine ⟨located, unwound, cfa, ?_, ?_, ?_, ?_⟩
  · exact congrArg Prod.fst locating
  · rw [interpreted, UnwindM.run_bind, show (o.unwinder.locate level).run.run _ = _ from locating]
    exact congrArg Prod.fst interpreting
  · cases missing : unwound.row.cfa with
    | some rule => rfl
    | none =>
        rw [missing] at evaluating
        cases evaluating
  · exact (Except.ok.inj found).symm

end Occasion

/-! Functions to try statements on, with no section behind them. -/
section Samples

def sampleCie (program : List UInt8) : Cie where
  offset := 0
  version := 1
  augmentationText := ""
  augmentation := none
  addressSize := 8
  codeAlignment := 1
  dataAlignment := -8
  returnColumn := 16
  program := program
  programOffset := 0x10

def sampleFde (start : UInt64) (program : List UInt8) : Fde where
  offset := 0x18
  cieOffset := 0
  start := start
  length := 0x100
  lsda := none
  program := program
  programOffset := 0x30

def CfiTable.ofFunctions (functions : List (Cie × Fde)) : CfiTable where
  modules := [{
    name := "sample"
    cies := (functions.map Prod.fst).toArray
    places := (functions.zipIdx.map fun ((_, fde), place) => {
      item := {
        low := fde.start, high := fde.limit, seq := place, fde, cie := place
        kind := .debugFrame, endian := .little, bases := { sectionAddress := 0 } }
      reach := fde.limit }).toArray
    dropped := 0 }]

def sampleArch : Arch where
  name := "sample"
  addressSize := 8
  endian := .little
  numRegs := 17
  pc := ⟨16⟩
  sp := ⟨7⟩

end Samples

end CallFrame
