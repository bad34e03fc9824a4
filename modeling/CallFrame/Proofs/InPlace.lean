import CallFrame.Proofs.DegradedRows
import CallFrame.Proofs.StepOutcome

/-!
Instructions carried out in place, with the arithmetic of words. The state keeps what was changed before a
fault. It turns out that an instruction that is refused has not changed anything, and that a program comes
to the state that running it says.
-/

namespace CallFrame

/-! Words that have not wrapped. -/
section Words

def unwrapped (word : Int64) (number : Int) : Option Int64 :=
  if word.toInt = number then some word else none

def checkedProduct (a b : Int64) : Option Int64 := unwrapped (a * b) (a.toInt * b.toInt)

def checkedNegation (a : Int64) : Option Int64 := unwrapped (-a) (-a.toInt)

def checkedSigned (word : UInt64) : Option Int64 := unwrapped word.toInt64 word.toNat

def checkedDistance (delta factor : UInt64) : Option UInt64 :=
  if (delta * factor).toNat = delta.toNat * factor.toNat then some (delta * factor) else none

def checkedSum (location distance : UInt64) : Option UInt64 :=
  if (location + distance).toNat = location.toNat + distance.toNat then some (location + distance) else none

def FitsWord (number : Int) : Prop := -0x8000000000000000 ≤ number ∧ number < 0x8000000000000000

instance (number : Int) : Decidable (FitsWord number) := inferInstanceAs (Decidable (_ ∧ _))

theorem word_fits (word : Int64) : FitsWord word.toInt := by
  have low := word.le_toInt
  have high := word.toInt_lt
  constructor <;> omega

theorem of_int_exact_iff (number : Int) : (Int64.ofInt number).toInt = number ↔ FitsWord number := by
  constructor
  · intro exact
    rw [← exact]
    exact word_fits _
  · rintro ⟨low, high⟩
    exact Int64.toInt_ofInt_of_le low high

def orRefuse (refusal : Fault) : Option Int64 → Except Fault Int64
  | some word => .ok word
  | none => .error refusal

theorem refuse_wrapped (refusal : Fault) {word : Int64} {number : Int} (same : word = Int64.ofInt number) :
    orRefuse refusal (unwrapped word number) = exactOffset refusal number := by
  subst same
  unfold unwrapped exactOffset
  by_cases fits : FitsWord number
  · rw [if_pos ((of_int_exact_iff number).mpr fits)]
    exact (if_pos fits).symm
  · rw [if_neg fun exact => fits ((of_int_exact_iff number).mp exact)]
    exact (if_neg fits).symm

variable (refusal : Fault)

theorem refuse_product (a b : Int64) :
    orRefuse refusal (checkedProduct a b) = exactOffset refusal (a.toInt * b.toInt) := by
  apply refuse_wrapped
  rw [Int64.ofInt_mul, Int64.ofInt_toInt, Int64.ofInt_toInt]

theorem refuse_negation (a : Int64) :
    orRefuse refusal (checkedNegation a) = exactOffset refusal (-a.toInt) := by
  apply refuse_wrapped
  rw [Int64.ofInt_neg, Int64.ofInt_toInt]

theorem refuse_signed (word : UInt64) :
    orRefuse refusal (checkedSigned word) = exactOffset refusal word.toNat := by
  apply refuse_wrapped
  apply Int64.toBitVec_inj.mp
  change word.toBitVec = BitVec.ofInt 64 word.toBitVec.toNat
  rw [BitVec.ofInt_natCast, BitVec.ofNat_toNat, BitVec.setWidth_eq]

-- A distance that is no word goes past the last address from everywhere.
theorem distance_sum (location delta factor : UInt64) :
    (checkedDistance delta factor >>= checkedSum location).getD 0xffffffffffffffff =
      (min (location.toNat + delta.toNat * factor.toNat) 0xffffffffffffffff).toUInt64 := by
  have product := UInt64.toNat_mul delta factor
  unfold checkedDistance
  generalize delta * factor = distance at product ⊢
  generalize delta.toNat * factor.toNat = exact at product ⊢
  split
  next same =>
    have sum := UInt64.toNat_add location distance
    change (checkedSum location distance).getD _ = _
    unfold checkedSum
    split
    next same' =>
      have within := (location + distance).toNat_lt
      apply UInt64.toNat_inj.mp
      rw [word_nat _ (by omega), Nat.min_eq_left (by omega), Option.getD_some]
      omega
    next past =>
      rw [Nat.min_eq_right (by omega)]
      rfl
  next wraps =>
    rw [Nat.min_eq_right (by omega)]
    rfl

end Words

/-! Instructions carried out in place. -/

/-- An action on the state. What it has changed stays changed when it fails. -/
abbrev InPlace := ExceptT Fault (StateM RunState)

namespace InPlace

def signedUnits (cie : Cie) (units : Int64) : Except Fault Int64 :=
  orRefuse (.factoredOffsetTooLarge units.toInt) (checkedProduct units cie.dataAlignment)

def unsignedUnits (cie : Cie) (units : UInt64) : Except Fault Int64 := do
  let units ← orRefuse (.factoredOffsetTooLarge units.toNat) (checkedSigned units)
  signedUnits cie units

def negatedUnits (cie : Cie) (units : UInt64) : Except Fault Int64 := do
  let offset ← unsignedUnits cie units
  orRefuse (.factoredOffsetTooLarge units.toNat) (checkedNegation offset)

def frameOffset (offset : UInt64) : Except Fault Int64 :=
  orRefuse (.cfaOffsetTooLarge offset) (checkedSigned offset)

def warn (warning : Warning) : InPlace Unit := modify (·.warn warning)

def setCfa (cfa : CfaRule) : InPlace Unit := modify (·.setCfa cfa)

def setColumn (column : Register) (rule : RegisterRule) : InPlace Unit := modify (·.setRule column rule)

def setLocation (location : UInt64) : InPlace Unit := modify fun state => { state with location }

def setTable (table : RuleTable) : InPlace Unit := modify fun state => { state with table }

def moveTo (location : UInt64) : InPlace Unit := do
  let state ← get
  if location < state.location then do
    warn (.movedBackwards state.location location)
    setLocation location
  else setLocation location

def advance (delta factor : UInt64) : InPlace Unit := do
  let state ← get
  setLocation ((checkedDistance delta factor >>= checkedSum state.location).getD 0xffffffffffffffff)

def setCfaRegister (r : Register) : InPlace Unit := do
  let state ← get
  match state.table.row.cfa with
  | some (.registerAndOffset _ offset) => setCfa (.registerAndOffset r offset)
  | _ => do
    warn .cfaRegisterAlone
    setCfa (.registerAndOffset r 0)

def setCfaOffset (offset : Int64) : InPlace Unit := do
  let state ← get
  match state.table.row.cfa with
  | some (.registerAndOffset r _) => setCfa (.registerAndOffset r offset)
  | _ => warn .cfaOffsetAlone

def remember : InPlace Unit := do
  let state ← get
  match state.table.remember with
  | some table => setTable table
  | none => throw (.tooManyRememberedRows maxRemembered)

def restore : InPlace Unit := do
  let state ← get
  match state.table.restore with
  | some table => setTable table
  | none => warn .nothingRemembered

def saveWindow (size : UInt8) : InPlace Unit := do
  (List.range 8).forM fun i => setColumn ⟨(8 + i).toUInt16⟩ (.savedInRegister ⟨(24 + i).toUInt16⟩)
  (List.range 16).forM fun i => setColumn ⟨(16 + i).toUInt16⟩ (.savedAtOffset (Int64.ofNat (i * size.toNat)))

def carry (target : Target) (entry : CfiEntry) (instruction : Instruction) : InPlace Unit :=
  let column := target.column entry.kind
  let setRule (raw : UInt64) (rule : RegisterRule) : InPlace Unit := do setColumn (← column raw) rule
  match instruction with
  | .setLoc address => moveTo (address + entry.bias)
  | .advanceLoc delta => advance delta entry.cie.codeAlignment
  | .defCfa register offset => do
    let register ← column register
    let offset ← frameOffset offset
    setCfa (.registerAndOffset register offset)
  | .defCfaSf register units => do
    let register ← column register
    let offset ← signedUnits entry.cie units
    setCfa (.registerAndOffset register offset)
  | .defCfaRegister register => do setCfaRegister (← column register)
  | .defCfaOffset offset => do setCfaOffset (← frameOffset offset)
  | .defCfaOffsetSf units => do setCfaOffset (← signedUnits entry.cie units)
  | .defCfaExpression expression => setCfa (.expression expression)
  | .undefined register => setRule register .undefined
  | .sameValue register => setRule register .sameValue
  | .offset register units => do
    let offset ← unsignedUnits entry.cie units
    setRule register (.savedAtOffset offset)
  | .offsetExtendedSf register units => do
    let offset ← signedUnits entry.cie units
    setRule register (.savedAtOffset offset)
  | .negativeOffsetExtended register units => do
    let offset ← negatedUnits entry.cie units
    setRule register (.savedAtOffset offset)
  | .valOffset register units => do
    let offset ← unsignedUnits entry.cie units
    setRule register (.savedValueAtOffset offset)
  | .valOffsetSf register units => do
    let offset ← signedUnits entry.cie units
    setRule register (.savedValueAtOffset offset)
  | .register register source => do
    let source ← column source
    setRule register (.savedInRegister source)
  | .expression register expression => setRule register (.savedByExpression expression)
  | .valExpression register expression => setRule register (.savedValueByExpression expression)
  | .restore register => do
    let register ← column register
    let state ← get
    setColumn register (state.initial.rule register)
  | .rememberState => remember
  | .restoreState => restore
  | .windowSave => if target.registerWindows then saveWindow target.addressSize else pure ()
  | .skipped _ | .nop => pure ()

def runProgram (target : Target) (entry : CfiEntry) (pc : UInt64) :
    List (Except Fault Instruction) → InPlace Unit
  | [] => pure ()
  | next :: rest => do
    let state ← get
    if pc < state.location then pure ()
    else do
      let instruction ← next
      carry target entry instruction
      runProgram target entry pc rest

end InPlace

/-! Actions that leave nothing half done. -/
section Atomic

/-- Carried out on this state, the action comes to the result. If that is a fault, nothing has been changed. -/
def InPlace.Atomic (action : InPlace Unit) (state : RunState) (result : Except Fault RunState) : Prop :=
  action.run state =
    match result with
    | .ok after => (.ok (), after)
    | .error fault => (.error fault, state)

namespace InPlace

variable {state middle after : RunState} {first second : InPlace Unit}

theorem atomic_modify (change : RunState → RunState) : Atomic (modify change) state (.ok (change state)) := rfl

theorem atomic_pure : Atomic (pure ()) state (.ok state) := rfl

-- An operand is computed before anything is changed.
theorem atomic_operand {operand : Except Fault α} {follow : α → InPlace Unit} {result : α → Except Fault RunState}
    (each : ∀ value, Atomic (follow value) state (result value)) :
    Atomic (liftM operand >>= follow) state (operand >>= result) := by
  cases operand with
  | error fault => rfl
  | ok value => exact each value

theorem atomic_look {follow : RunState → InPlace Unit} {result : Except Fault RunState}
    (here : Atomic (follow state) state result) : Atomic (get >>= follow) state result := here

theorem run_follow {action : InPlace α} {follow : α → InPlace β} {value : α}
    (carried : action.run state = (.ok value, middle)) :
    (action >>= follow).run state = (follow value).run middle := by
  change (match action.run state with
    | (result, left) => (ExceptT.bindCont follow result).run left) = _
  rw [carried]
  rfl

theorem run_stop {action : InPlace α} {follow : α → InPlace β} {fault : Fault}
    (failed : action.run state = (.error fault, middle)) :
    (action >>= follow).run state = (.error fault, middle) := by
  change (match action.run state with
    | (result, left) => (ExceptT.bindCont follow result).run left) = _
  rw [failed]
  rfl

-- An action that cannot fail may come first, if what follows cannot fail either.
theorem atomic_then (sure : Atomic first state (.ok middle)) (follows : Atomic second middle (.ok after)) :
    Atomic (first >>= fun _ => second) state (.ok after) :=
  (run_follow sure).trans follows

theorem atomic_each (items : List α) (change : α → RunState → RunState) :
    Atomic (items.forM fun item => modify (change item)) state
      (.ok (items.foldl (fun state item => change item state) state)) := by
  induction items generalizing state with
  | nil => exact atomic_pure
  | cons item rest ih => exact atomic_then (atomic_modify (change item)) ih

/-! The computations of operands. -/

theorem signed_units (cie : Cie) (units : Int64) : signedUnits cie units = signedOffset cie units :=
  refuse_product _ units cie.dataAlignment

theorem unsigned_units (cie : Cie) (units : UInt64) : unsignedUnits cie units = unsignedOffset cie units := by
  simp only [unsignedUnits, unsignedOffset, refuse_signed]
  cases stored : exactOffset (.factoredOffsetTooLarge units.toNat) units.toNat with
  | error fault => rfl
  | ok word =>
      change signedUnits cie word = exactOffset _ _
      rw [signed_units, signedOffset, (exact_offset_ok stored).2]

theorem negated_units (cie : Cie) (units : UInt64) : negatedUnits cie units = negatedOffset cie units := by
  simp only [negatedUnits, negatedOffset, unsigned_units, refuse_negation]

theorem frame_offset (offset : UInt64) : frameOffset offset = cfaOffset offset := refuse_signed _ offset

/-! Every instruction. -/

theorem advance_atomic (delta factor : UInt64) :
    Atomic (advance delta factor) state (.ok (state.advance delta factor)) := by
  apply atomic_look
  rw [distance_sum]
  exact atomic_modify _

theorem move_atomic (location : UInt64) : Atomic (moveTo location) state (.ok (state.moveTo location)) := by
  apply atomic_look
  unfold RunState.moveTo
  split
  · exact atomic_then (atomic_modify _) (atomic_modify _)
  · exact atomic_modify _

theorem cfa_register_atomic (r : Register) :
    Atomic (setCfaRegister r) state (.ok (state.setCfaRegister r)) := by
  apply atomic_look
  unfold RunState.setCfaRegister
  rcases state.table.row.cfa with _ | held | expression
  · exact atomic_then (atomic_modify _) (atomic_modify _)
  · exact atomic_modify _
  · exact atomic_then (atomic_modify _) (atomic_modify _)

theorem cfa_offset_atomic (offset : Int64) : Atomic (setCfaOffset offset) state (.ok (state.setCfaOffset offset)) := by
  apply atomic_look
  unfold RunState.setCfaOffset
  rcases state.table.row.cfa with _ | held | expression <;> exact atomic_modify _

theorem window_atomic (size : UInt8) : Atomic (saveWindow size) state (.ok (state.saveWindow size)) :=
  atomic_then (atomic_each _ _) (atomic_each _ _)

variable {target : Target} {entry : CfiEntry}

theorem rule_atomic (raw : UInt64) (rule : RegisterRule) :
    Atomic (do setColumn (← target.column entry.kind raw) rule) state
      (do return state.setRule (← target.column entry.kind raw) rule) :=
  atomic_operand fun _ => atomic_modify _

/-- Carried out in place, an instruction comes to what the step says, and it leaves no trace when it is
refused. -/
theorem carry_atomic (instruction : Instruction) :
    Atomic (carry target entry instruction) state (step target entry instruction state) := by
  cases instruction with
  | setLoc address => exact move_atomic _
  | advanceLoc delta => exact advance_atomic _ _
  | defCfa register offset =>
      apply atomic_operand
      intro register
      rw [frame_offset]
      exact atomic_operand fun _ => atomic_modify _
  | defCfaSf register units =>
      apply atomic_operand
      intro register
      rw [signed_units]
      exact atomic_operand fun _ => atomic_modify _
  | defCfaRegister register => exact atomic_operand fun _ => cfa_register_atomic _
  | defCfaOffset offset =>
      simp only [carry, frame_offset]
      exact atomic_operand fun _ => cfa_offset_atomic _
  | defCfaOffsetSf units =>
      simp only [carry, signed_units]
      exact atomic_operand fun _ => cfa_offset_atomic _
  | defCfaExpression expression => exact atomic_modify _
  | undefined | sameValue | expression | valExpression => exact rule_atomic _ _
  | offset register units | valOffset register units =>
      simp only [carry, unsigned_units]
      exact atomic_operand fun _ => rule_atomic _ _
  | offsetExtendedSf register units | valOffsetSf register units =>
      simp only [carry, signed_units]
      exact atomic_operand fun _ => rule_atomic _ _
  | negativeOffsetExtended register units =>
      simp only [carry, negated_units]
      exact atomic_operand fun _ => rule_atomic _ _
  | register register source => exact atomic_operand fun _ => rule_atomic _ _
  | restore register =>
      exact atomic_operand fun _ => atomic_look (atomic_modify _)
  | rememberState =>
      apply atomic_look
      rw [step]
      cases state.table.remember with
      | none => rfl
      | some table => exact atomic_modify _
  | restoreState =>
      apply atomic_look
      rw [step]
      cases state.table.restore <;> exact atomic_modify _
  | windowSave =>
      simp only [carry, step]
      split
      · exact window_atomic _
      · exact atomic_pure
  | skipped | nop => exact atomic_pure

/-- A program carried out in place comes to the state that running it says, with the same fault. -/
theorem run_program (pc : UInt64) (program : List (Except Fault Instruction)) :
    (runProgram target entry pc program).run state =
      match run target entry pc program state with
      | (after, none) => (.ok (), after)
      | (after, some fault) => (.error fault, after) := by
  induction program generalizing state with
  | nil => rfl
  | cons next rest ih =>
      have looks : (runProgram target entry pc (next :: rest)).run state =
          (if pc < state.location then (pure () : InPlace Unit)
          else do
            let instruction ← next
            carry target entry instruction
            runProgram target entry pc rest).run state := rfl
      rw [looks]
      by_cases past : pc < state.location
      · rw [if_pos past, run_past pc _ state past]
        rfl
      rw [if_neg past]
      cases next with
      | error fault =>
          rw [run_cons past]
          rfl
      | ok instruction =>
          change (carry target entry instruction >>= fun _ => runProgram target entry pc rest).run state = _
          have carried : (carry target entry instruction).Atomic state _ := carry_atomic instruction
          cases made : step target entry instruction state with
          | error fault =>
              rw [made] at carried
              rw [run_refused past made]
              exact run_stop carried
          | ok after =>
              rw [made] at carried
              rw [run_carried past made, run_follow carried]
              exact ih

end InPlace

end Atomic

end CallFrame
