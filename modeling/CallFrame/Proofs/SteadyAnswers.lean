import CallFrame.Proofs.Composition

/-!
Answers that do not depend on what was decoded before. A session is sound if every slot that is filled
holds what its frame decodes to from scratch. A question is steady if it has one answer in all sound
sessions with room for it, keeps them sound, and does nothing to them but fill empty slots, each by a
decoding of its own. What is asked of a frame is steady if the registers and the memory behind the
frame are, and so is what is decoded from it.
-/

namespace CallFrame

namespace FrameChain

variable (chain : FrameChain)

/-- Whether a frame was decoded, well or not. -/
def filled (level : Nat) : Bool := (chain.slot? level).join.isSome

theorem slot_none (level : Nat) : chain.slot? level = none ↔ chain.size ≤ level := by
  cases level <;> simp [slot?, size]

theorem slot_inside {chain : FrameChain} {level : Nat} {content : Slot}
    (slot : chain.slot? level = some content) : level < chain.size := by
  apply Nat.lt_of_not_ge
  intro absent
  rw [(chain.slot_none level).mpr absent] at slot
  cases slot

theorem size_fill (result : Except Fault FrameCache) (level : Nat) :
    (chain.fill result level).size = chain.size := by
  cases level <;> simp [fill, size]

theorem slot_fill (result : Except Fault FrameCache) {level : Nat} (present : level < chain.size)
    (other : Nat) :
    (chain.fill result level).slot? other =
      if other = level then some (some result) else chain.slot? other := by
  cases level with
  | zero => cases other <;> rfl
  | succ level =>
      cases other with
      | zero => rfl
      | succ other =>
          have inside : level < chain.callers.length := Nat.lt_of_succ_lt_succ present
          simp only [fill, slot?, List.getElem?_set, inside, ↓reduceIte, Nat.succ_inj,
            eq_comm (a := level)]

end FrameChain

/-- What questions may do to a session if the frames that they decode are inside a level. Filled slots
stay as they are, and a decoding is begun for each slot that is filled on the way and for no other. -/
structure Grows (reach : Nat) (before after : Session) : Prop where
  size : after.chain.size = before.chain.size
  kept (level : Nat) (result : Except Fault FrameCache) :
    before.chain.slot? level = some (some result) → after.chain.slot? level = some (some result)
  untouched (level : Nat) : reach ≤ level → after.chain.slot? level = before.chain.slot? level
  counted (level : Nat) :
    after.decodings.count level + (before.chain.filled level).toNat =
      before.decodings.count level + (after.chain.filled level).toNat

namespace Grows

theorem of_same {reach : Nat} {before after : Session} (chain : after.chain = before.chain)
    (decodings : after.decodings = before.decodings) : Grows reach before after where
  size := by rw [chain]
  kept level result filled := by rw [chain, filled]
  untouched level _ := by rw [chain]
  counted level := by rw [chain, decodings]

theorem trans {reach : Nat} {first second third : Session} (early : Grows reach first second)
    (late : Grows reach second third) : Grows reach first third where
  size := late.size.trans early.size
  kept level result filled := late.kept level result (early.kept level result filled)
  untouched level outside := (late.untouched level outside).trans (early.untouched level outside)
  counted level := by
    have early := early.counted level
    have late := late.counted level
    omega

theorem mono {reach wider : Nat} {before after : Session} (grows : Grows reach before after)
    (within : reach ≤ wider) : Grows wider before after where
  size := grows.size
  kept := grows.kept
  untouched level outside := grows.untouched level (Nat.le_trans within outside)
  counted := grows.counted

/-- Decoding a frame from frames inside it, and then filling its slot. -/
theorem fill {level : Nat} {before after : Session} (slot : before.chain.slot? level = some none)
    (grows : Grows level (before.withDecoding level) after) (result : Except Fault FrameCache) :
    Grows (level + 1) before { after with chain := after.chain.fill result level } := by
  have inside : level < after.chain.size := by
    rw [grows.size]
    exact FrameChain.slot_inside slot
  have slots := after.chain.slot_fill result inside
  constructor
  · exact (after.chain.size_fill result level).trans grows.size
  · intro other known filled
    rw [slots, if_neg]
    · exact grows.kept other known filled
    · rintro rfl
      rw [slot] at filled
      cases filled
  · intro other outside
    rw [slots, if_neg (Nat.ne_of_gt outside)]
    exact grows.untouched other (Nat.le_of_succ_le outside)
  · intro other
    have counted := grows.counted other
    have same := grows.untouched other
    simp only [Session.withDecoding, FrameChain.filled, List.count_append, slots] at *
    by_cases here : other = level
    · -- This one slot is filled by the decoding that was begun for it.
      subst here
      simp only [same (Nat.le_refl _), slot, List.count_singleton, BEq.rfl, ↓reduceIte] at *
      exact counted
    · have apart : ¬ level = other := fun same => here same.symm
      simp only [List.count_singleton, beq_iff_eq, apart, here, ↓reduceIte] at *
      exact counted

end Grows

def Sound (truth : Nat → Except Fault FrameCache) (session : Session) : Prop :=
  ∀ level result, session.chain.slot? level = some (some result) → result = truth level

theorem Sound.fill {truth : Nat → Except Fault FrameCache} {session : Session} {level : Nat}
    (sound : Sound truth session) (inside : level < session.chain.size) :
    Sound truth { session with chain := session.chain.fill (truth level) level } := by
  intro other result filled
  rw [FrameChain.slot_fill _ _ inside] at filled
  split at filled
  next same =>
    cases filled
    rw [same]
  next => exact sound other result filled

/-- The question keeps sessions sound and decodes no frames but those inside the level `reach`. It has
this answer in all sound sessions with so many frames or more. -/
def Answers (truth : Nat → Except Fault FrameCache) (room reach : Nat) (question : SessionM α)
    (answer : α) : Prop :=
  ∀ session, Sound truth session →
    Sound truth (question.run session).2 ∧ Grows reach session (question.run session).2 ∧
      (room ≤ session.chain.size → (question.run session).1 = answer)

def Steady (truth : Nat → Except Fault FrameCache) (room reach : Nat) (question : SessionM α) :
    Prop :=
  ∃ answer, Answers truth room reach question answer

section Steady

variable {truth : Nat → Except Fault FrameCache} {room reach : Nat}

theorem steady_pure (value : α) : Steady truth room reach (pure value : SessionM α) :=
  ⟨value, fun _ sound => ⟨sound, .of_same rfl rfl, fun _ => rfl⟩⟩

theorem steady_bind {question : SessionM α} {follow : α → SessionM β}
    (first : Steady truth room reach question)
    (rest : ∀ value, Steady truth room reach (follow value)) :
    Steady truth room reach (question >>= follow) := by
  obtain ⟨value, answered⟩ := first
  obtain ⟨answer, answered'⟩ := rest value
  refine ⟨answer, fun session sound => ?_⟩
  obtain ⟨between, grows, same⟩ := answered session sound
  -- Where there is no room for the first question, anything may be the next one.
  obtain ⟨_, next⟩ := rest (question.run session).1
  obtain ⟨after, grows', -⟩ := next _ between
  refine ⟨after, grows.trans grows', fun enough => ?_⟩
  rw [SessionM.run_bind, same enough]
  exact (answered' _ between).2.2 (grows.size.symm ▸ enough)

theorem steady_mono {room' reach' : Nat} {question : SessionM α}
    (steady : Steady truth room reach question) (roomier : room ≤ room') (wider : reach ≤ reach') :
    Steady truth room' reach' question := by
  obtain ⟨answer, answered⟩ := steady
  refine ⟨answer, fun session sound => ?_⟩
  obtain ⟨after, grows, same⟩ := answered session sound
  exact ⟨after, grows.mono wider, fun enough => same (Nat.le_trans roomier enough)⟩

theorem steady_warn (warnings : List Warning) : Steady truth room reach (warn warnings) :=
  ⟨(), fun _ sound => ⟨sound, .of_same rfl rfl, fun _ => rfl⟩⟩

theorem steady_composes : Compositional fun _ question => Steady truth room reach question :=
  ⟨steady_pure, steady_bind, steady_warn⟩

theorem steady_unwind_bind {question : UnwindM α} {follow : α → UnwindM β}
    (first : Steady truth room reach question.run)
    (rest : ∀ value, Steady truth room reach (follow value).run) :
    Steady truth room reach (question >>= follow).run :=
  steady_composes.unwind_bind first rest

/-- Where there is room for a frame, it is there. -/
theorem present_steady (level : Nat) :
    Steady truth (level + 1) reach (do return (← get).chain.contains level) :=
  ⟨true, fun _ sound => ⟨sound, .of_same rfl rfl, fun enough => decide_eq_true enough⟩⟩

/-- A slot answers what is true of its frame, if that is what filling it comes to. -/
theorem once_answers {level : Nat} {compute : UnwindM FrameCache}
    (computes : Answers truth (level + 1) level compute.run (truth level)) :
    Answers truth (level + 1) (level + 1) (Unwinder.once level compute).run (truth level) := by
  intro session sound
  rw [Unwinder.once_run]
  cases slot : session.chain.slot? level with
  | none =>
      have absent := (FrameChain.slot_none _ level).mp slot
      exact ⟨sound, .of_same rfl rfl, fun enough => absurd enough (Nat.not_lt.mpr absent)⟩
  | some content =>
      cases content with
      | some known => exact ⟨sound, .of_same rfl rfl, fun _ => sound level known slot⟩
      | none =>
          have present := FrameChain.slot_inside slot
          obtain ⟨between, grows, answered⟩ := computes (session.withDecoding level) sound
          have answered := answered present
          dsimp only
          generalize compute.run.run (session.withDecoding level) = done at *
          refine ⟨?_, grows.fill slot done.1, fun _ => answered⟩
          rw [answered]
          exact between.fill (grows.size ▸ present)

/-- The registers of a frame and of the frames inside it are steady, and so is memory. For the registers
of a frame, frames inside it may have to be decoded. -/
structure Dependable (truth : Nat → Except Fault FrameCache) (level : Nat) (inferior : Inferior) :
    Prop where
  registers (inner : Nat) (r : Register) :
    inner ≤ level → Steady truth inner inner (inferior.readRegister inner r).run
  memory (address : UInt64) (length : Nat) :
    Steady truth 0 0 (inferior.readMemory address length).run

theorem Dependable.mono {level inner : Nat} {inferior : Inferior}
    (dependable : Dependable truth level inferior) (within : inner ≤ level) :
    Dependable truth inner inferior where
  registers innermost r below := dependable.registers innermost r (Nat.le_trans below within)
  memory := dependable.memory

theorem asks_steady {level : Nat} {target : Target} {question : Inferior → SessionM α}
    (asks : Asks level target question) {inferior : Inferior}
    (dependable : Dependable truth level inferior) :
    Steady truth level level (question inferior) :=
  steady_composes.asks asks
    (fun inner r within => steady_mono (dependable.registers inner r within) within within)
    fun address length =>
      steady_mono (dependable.memory address length) (Nat.zero_le _) (Nat.zero_le _)

theorem interrupted_steady {inner : UnwindM FrameCache} (steady : Steady truth room reach inner.run) :
    Steady truth room reach (Unwinder.interrupted inner) := by
  apply steady_bind steady
  intro cache
  cases cache <;> exact steady_pure _

end Steady

def Session.fresh (outermost : Nat) : Session :=
  { chain := { callers := List.replicate outermost none } }

theorem Session.fresh_size (outermost : Nat) : (fresh outermost).chain.size = outermost + 1 := by
  simp [fresh, FrameChain.size]

theorem Session.fresh_sound (truth : Nat → Except Fault FrameCache) (outermost : Nat) :
    Sound truth (fresh outermost) := by
  intro level result filled
  cases level with
  | zero => cases filled
  | succ level =>
      have empty := List.eq_of_mem_replicate (List.mem_of_getElem? filled)
      cases empty

def afresh (level : Nat) (computation : UnwindM α) : Except Fault α :=
  (computation.run.run (Session.fresh level)).1

section Afresh

variable {truth : Nat → Except Fault FrameCache} {level reach : Nat}

theorem steady_afresh {question : UnwindM α} (steady : Steady truth (level + 1) reach question.run)
    {session : Session} (sound : Sound truth session) (present : level < session.chain.size) :
    (question.run.run session).1 = afresh level question := by
  obtain ⟨answer, answered⟩ := steady
  have room := Nat.le_of_eq (Session.fresh_size level).symm
  rw [(answered session sound).2.2 present, afresh,
    (answered _ (Session.fresh_sound truth level)).2.2 room]

theorem afresh_bind {question : UnwindM α} {follow : α → UnwindM β}
    (first : Steady truth (level + 1) reach question.run)
    (rest : ∀ value, Steady truth (level + 1) reach (follow value).run) :
    afresh level (question >>= follow) =
      afresh level question >>= fun value => afresh level (follow value) := by
  have room := Nat.le_of_eq (Session.fresh_size level).symm
  obtain ⟨_, answered⟩ := first
  obtain ⟨sound, grows, -⟩ := answered _ (Session.fresh_sound truth level)
  unfold afresh
  rw [UnwindM.run_bind]
  rcases done : question.run.run (Session.fresh level) with ⟨fault | value, after⟩ <;>
    rw [done] at sound grows
  · rfl
  · exact steady_afresh (rest value) sound (grows.size.symm ▸ room)

end Afresh

/-! What an unwinder finds out about a frame. -/
namespace Unwinder

def fromScratch (u : Unwinder) (level : Nat) : Except Fault FrameCache :=
  afresh level (u.decode level)

variable {u : Unwinder}

/-- What the unwinder does itself with the frames up to a level is steady. The slots may hold what frames
decode to from scratch, and nothing else. -/
def Reliable (u : Unwinder) (level : Nat) : Prop :=
  ∀ inner, inner ≤ level →
    u.Parts (fun _ question => Steady u.fromScratch (inner + 1) inner question) inner

theorem Reliable.mono {level inner : Nat} (reliable : u.Reliable level) (within : inner ≤ level) :
    u.Reliable inner :=
  fun innermost below => reliable innermost (Nat.le_trans below within)

theorem reliable_of_asks (asks : u.AsksOnly) {level : Nat}
    (dependable : Dependable u.fromScratch level u.inferior) : u.Reliable level := by
  intro inner within
  have roomier := Nat.le_succ inner
  apply parts_of_asks steady_composes asks (present_steady inner)
  · intro innermost r below
    have register := dependable.registers innermost r (Nat.le_trans below within)
    exact steady_mono register (Nat.le_trans below roomier) below
  · intro address length
    exact steady_mono (dependable.memory address length) (Nat.zero_le _) (Nat.zero_le _)

variable {level : Nat} (reliable : u.Reliable level)

include reliable

/-- Every slot is filled with what its frame decodes to from scratch. -/
theorem cache_answers :
    Answers u.fromScratch (level + 1) (level + 1) (u.cache level).run (u.fromScratch level) := by
  have filled (level : Nat) (reliable : u.Reliable level)
      (decides : Steady u.fromScratch level level (u.exactPc level)) :
      Answers u.fromScratch (level + 1) (level + 1) (u.cache level).run (u.fromScratch level) := by
    have steady := decode_with_holds steady_composes (reliable level (Nat.le_refl level))
      (steady_mono decides (Nat.le_succ level) (Nat.le_refl level))
    rw [cache_eq_once]
    apply once_answers
    intro session sound
    obtain ⟨answer, answered⟩ := steady
    obtain ⟨after, grows, -⟩ := answered session sound
    exact ⟨after, grows, steady_afresh ⟨answer, answered⟩ sound⟩
  induction level with
  | zero => exact filled 0 reliable (steady_pure true)
  | succ level ih =>
      apply filled (level + 1) reliable
      exact interrupted_steady ⟨_, ih (reliable.mono (Nat.le_succ level))⟩

theorem cache_afresh : afresh level (u.cache level) = u.fromScratch level :=
  have room := Nat.le_of_eq (Session.fresh_size level).symm
  (cache_answers reliable _ (Session.fresh_sound _ level)).2.2 room

theorem exact_steady : Steady u.fromScratch level level (u.exactPc level) := by
  cases level with
  | zero => exact steady_pure true
  | succ level =>
      exact interrupted_steady ⟨_, cache_answers (reliable.mono (Nat.le_succ level))⟩

theorem locate_steady : Steady u.fromScratch (level + 1) level (u.locate level).run :=
  locate_with_holds steady_composes (reliable level (Nat.le_refl level))
    (steady_mono (exact_steady reliable) (Nat.le_succ level) (Nat.le_refl level))

theorem apply_steady (cache : FrameCache) (r : Register) (rule : RegisterRule) :
    Steady u.fromScratch (level + 1) (level + 1) (u.apply cache level r rule).run :=
  have applied := apply_holds steady_composes (reliable level (Nat.le_refl level)) cache r rule
  steady_mono applied (Nat.le_refl _) (Nat.le_succ level)

theorem recover_steady (r : Register) :
    Steady u.fromScratch (level + 1) (level + 1) (u.recoverRegister level r).run := by
  apply steady_unwind_bind ⟨_, cache_answers reliable⟩
  intro cache
  exact apply_steady reliable cache r _

end Unwinder

end CallFrame
