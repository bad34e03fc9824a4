import CallFrame.Interpreter
import CallFrame.Proofs.ReadingInBounds

/-!
Interpreting on the machine that stops. A row is grown before a column past its end is written, and
never beyond the columns that there are numbers for. So no instruction stops the machine, whatever the
row, and a run of two programs stops it only where it cannot decode them.
-/

namespace CallFrame

namespace Checked

def columnLimit : Nat := 2 ^ 16

def offsetLimit : Nat := 2 ^ 63

def column (number : Nat) : Except Trap Register :=
  require (number < columnLimit) .truncated ⟨number.toUInt16⟩

/-! Rows. -/

def resize (rules : Array RegisterRule) (size : Nat) : Except Trap (Array RegisterRule) :=
  require (size ≤ columnLimit) .tooWide
    (rules ++ Array.replicate (size - rules.size) .unspecified)

def replace (rules : Array RegisterRule) (i : Nat) (rule : RegisterRule) :
    Except Trap (Array RegisterRule) :=
  require (i < rules.size) .outOfBounds (rules.setIfInBounds i rule)

def setRule (row : Row) (r : Register) (rule : RegisterRule) : Except Trap Row := do
  let place := r.number.toNat
  let rules ←
    if row.rules.size ≤ place then
      resize row.rules (← sum wordLimit place 1)
    else pure row.rules
  return { row with rules := ← replace rules place rule }

def specified (row : Row) : Except Trap (List (Register × RegisterRule)) :=
  (row.rules.toList.zipIdx.filter (·.1 ≠ .unspecified)).mapM fun (rule, number) =>
    return (← column number, rule)

/-! Instructions. -/

def giveRule (state : RunState) (r : Register) (rule : RegisterRule) : Except Trap RunState := do
  let row ← setRule state.table.row r rule
  return { state with table := { state.table with row } }

def saveWindow (state : RunState) (size : UInt8) : Except Trap RunState := do
  let state ← (List.range 8).foldlM (fun (state : RunState) i => do
    let source ← sum columnLimit (8 + i) 16
    giveRule state ⟨(8 + i).toUInt16⟩ (.savedInRegister ⟨source.toUInt16⟩)) state
  (List.range 16).foldlM (fun (state : RunState) i => do
    let slot ← difference (16 + i) 16
    let offset ← product offsetLimit slot size.toNat
    giveRule state ⟨(16 + i).toUInt16⟩ (.savedAtOffset (Int64.ofNat offset))) state

def targetColumn (target : Target) (kind : SectionKind) (raw : UInt64) : CheckedE Register := do
  let number := target.adjusted raw kind
  let limit ← sum wordLimit target.numRegs.toNat Target.extraColumns
  if number.toNat < limit ∧ number.toNat < columnLimit then return ⟨number.toUInt16⟩
  else throw (.registerOutOfRange number)

def step (target : Target) (entry : CfiEntry) (instruction : Instruction) (state : RunState) :
    CheckedE RunState := do
  let column := targetColumn target entry.kind
  match instruction with
  | .setLoc address => return state.moveTo (address + entry.bias)
  | .advanceLoc delta => return state.advance delta entry.cie.codeAlignment
  | .defCfa register offset =>
    return state.setCfa (.registerAndOffset (← column register) (← cfaOffset offset))
  | .defCfaSf register factored =>
    return state.setCfa (.registerAndOffset (← column register) (← signedOffset entry.cie factored))
  | .defCfaRegister register => return state.setCfaRegister (← column register)
  | .defCfaOffset offset => return state.setCfaOffset (← cfaOffset offset)
  | .defCfaOffsetSf factored => return state.setCfaOffset (← signedOffset entry.cie factored)
  | .defCfaExpression expression => return state.setCfa (.expression expression)
  | .undefined register => giveRule state (← column register) .undefined
  | .sameValue register => giveRule state (← column register) .sameValue
  | .offset register factored =>
    let offset ← unsignedOffset entry.cie factored
    giveRule state (← column register) (.savedAtOffset offset)
  | .offsetExtendedSf register factored =>
    let offset ← signedOffset entry.cie factored
    giveRule state (← column register) (.savedAtOffset offset)
  | .negativeOffsetExtended register factored =>
    let offset ← negatedOffset entry.cie factored
    giveRule state (← column register) (.savedAtOffset offset)
  | .valOffset register factored =>
    let offset ← unsignedOffset entry.cie factored
    giveRule state (← column register) (.savedValueAtOffset offset)
  | .valOffsetSf register factored =>
    let offset ← signedOffset entry.cie factored
    giveRule state (← column register) (.savedValueAtOffset offset)
  | .register register source =>
    let source ← column source
    giveRule state (← column register) (.savedInRegister source)
  | .expression register expression =>
    giveRule state (← column register) (.savedByExpression expression)
  | .valExpression register expression =>
    giveRule state (← column register) (.savedValueByExpression expression)
  | .restore register =>
    let register ← column register
    giveRule state register (state.initial.rule register)
  | .rememberState =>
    match state.table.remember with
    | some table => return { state with table }
    | none => throw (.tooManyRememberedRows maxRemembered)
  | .restoreState =>
    match state.table.restore with
    | some table => return { state with table }
    | none => return state.warn .nothingRemembered
  | .windowSave =>
    if target.registerWindows then saveWindow state target.addressSize else return state
  | .skipped _ | .nop => return state

def run (target : Target) (entry : CfiEntry) (pc : UInt64) :
    List (Except Fault Instruction) → RunState → Except Trap (RunState × Option Fault)
  | [], state => return (state, none)
  | next :: rest, state => do
    if pc < state.location then return (state, none)
    else match ← (do step target entry (← next) state : CheckedE RunState).run with
      | .ok state => run target entry pc rest state
      | .error fault => return (state, some fault)

/-- A program is decoded to its end, which may be further than a run gets. -/
def decode (entry : CfiEntry) (program : List UInt8) (offset : Nat) :
    Except Trap (List (Except Fault Instruction)) :=
  decodeProgram entry.operandFormat ⟨program, offset, entry.endian⟩

def runEntry (target : Target) (entry : CfiEntry) (pc : UInt64) (state : RunState) :
    Except Trap (RunState × Option Fault) := do
  let shared ← decode entry entry.cie.program entry.cie.programOffset
  match ← run target entry pc shared state with
  | (state, some fault) => return (state, some fault)
  | (state, none) =>
    let own ← decode entry entry.fde.program entry.fde.programOffset
    run target entry pc own state.handOver

/-- The columns get their rules one after the other, in a row that has the target's from the start. -/
def seed (target : Target) (entry : CfiEntry) (initReg : Register → RegisterRule) :
    Except Trap RunState := do
  let returnColumn := (entry.returnColumn target).toOption.getD noColumn
  let row ← (List.range (entry.seedCount target)).foldlM (fun (row : Row) number => do
    let r ← column number
    setRule row r (seedRule returnColumn initReg r)) (RuleTable.ofColumns target.numRegs.toNat).row
  return { location := entry.start, table := { row }, initial := row }

def execute (target : Target) (entry : CfiEntry) (initReg : Register → RegisterRule)
    (pc : UInt64) : Except Trap (UnwindRow × List Warning) := do
  let outcome (returnColumn : Register) (row : Row) (degraded : Option Fault) : UnwindRow :=
    { row, returnColumn, functionStart := entry.start
      signalFrame := entry.cie.isSignalFrame, degraded }
  let returnColumn ← (targetColumn target entry.kind entry.cie.returnColumn).run
  let seed ← seed target entry initReg
  match returnColumn with
  | .error fault =>
    return (outcome noColumn seed.table.row (some fault), [.badReturnColumn fault])
  | .ok returnColumn =>
    match ← runEntry target entry pc seed with
    | (state, none) => return (outcome returnColumn state.table.row none, state.warnings)
    | (state, some fault) =>
      return (outcome returnColumn state.table.row (some fault),
        state.warnings ++ [.programStopped entry.fde.offset fault])

end Checked

section Instructions

theorem CheckedE.run_lift (result : Except Fault α) : (liftM result : CheckedE α).run = .ok result := by
  cases result <;> rfl

theorem set_rule_checked (row : Row) (r : Register) (rule : RegisterRule) :
    Checked.setRule row r rule = .ok (row.setRule r rule) := by
  have numbered : r.number.toNat < 2 ^ 16 := r.number.toNat_lt
  unfold Checked.setRule Row.setRule
  dsimp only
  by_cases past : row.rules.size ≤ r.number.toNat
  · have next : Checked.sum Checked.wordLimit r.number.toNat 1 = .ok (r.number.toNat + 1) :=
      sum_ok (by unfold Checked.wordLimit; omega)
    have grown : Checked.resize row.rules (r.number.toNat + 1) =
        .ok (row.rules ++ Array.replicate (r.number.toNat + 1 - row.rules.size) .unspecified) :=
      require_ok (by unfold Checked.columnLimit; omega) _ _
    rw [if_pos past, after_ok next, after_ok grown, Checked.replace, after_ok (require_ok _ _ _)]
    · rfl
    · rw [Array.size_append, Array.size_replicate]
      omega
  · have nothing : r.number.toNat + 1 - row.rules.size = 0 := by omega
    rw [if_neg past, nothing, Array.replicate_zero, Array.append_empty]
    change (Checked.replace row.rules r.number.toNat rule >>= fun rules => pure { row with rules }) = _
    rw [Checked.replace, after_ok (require_ok (Nat.lt_of_not_le past) _ _)]
    rfl

theorem give_rule_checked (state : RunState) (r : Register) (rule : RegisterRule) :
    Checked.giveRule state r rule = .ok (state.setRule r rule) := by
  rw [Checked.giveRule, after_ok (set_rule_checked _ r rule)]
  rfl

theorem fold_checked {change : β → α → β} {checked : β → α → Except Trap β} (items : List α)
    (each : ∀ state, ∀ item ∈ items, checked state item = .ok (change state item)) (state : β) :
    items.foldlM checked state = .ok (items.foldl change state) := by
  induction items generalizing state with
  | nil => rfl
  | cons item rest ih =>
      rw [List.foldlM_cons, after_ok (each state item List.mem_cons_self), List.foldl_cons]
      exact ih (fun state other member => each state other (List.mem_cons_of_mem item member)) _

theorem save_window_checked (state : RunState) (size : UInt8) :
    Checked.saveWindow state size = .ok (state.saveWindow size) := by
  have bound := size.toNat_lt
  unfold Checked.saveWindow RunState.saveWindow
  dsimp only
  rw [after_ok (fold_checked _ _ state)]
  · apply fold_checked
    intro state i member
    have low := List.mem_range.mp member
    have scaled : i * size.toNat ≤ 16 * 256 := Nat.mul_le_mul (by omega) (by omega)
    have offset : Checked.product Checked.offsetLimit i size.toNat = .ok (i * size.toNat) :=
      product_ok (by unfold Checked.offsetLimit; omega)
    rw [after_ok (difference_ok (Nat.le_add_right 16 i)), Nat.add_sub_cancel_left, after_ok offset]
    exact give_rule_checked state _ _
  · intro state i member
    have low := List.mem_range.mp member
    have source : Checked.sum Checked.columnLimit (8 + i) 16 = .ok (24 + i) := by
      rw [sum_ok (by unfold Checked.columnLimit; omega), Nat.add_right_comm]
    rw [after_ok source]
    exact give_rule_checked state _ _

variable (target : Target) (entry : CfiEntry)

theorem target_column_checked (kind : SectionKind) (raw : UInt64) :
    (Checked.targetColumn target kind raw).run = .ok (target.column kind raw) := by
  have few := target.numRegs.toNat_lt
  have limit : Checked.sum Checked.wordLimit target.numRegs.toNat Target.extraColumns =
      .ok (target.numRegs.toNat + Target.extraColumns) :=
    sum_ok (by unfold Checked.wordLimit Target.extraColumns; omega)
  unfold Checked.targetColumn Target.column
  dsimp only
  rw [CheckedE.run_operation limit]
  by_cases known : (target.adjusted raw kind).toNat < target.numRegs.toNat + Target.extraColumns ∧
      (target.adjusted raw kind).toNat < 65536
  · rw [if_pos known]
    exact congrArg ExceptT.run (if_pos known)
  · rw [if_neg known]
    exact congrArg ExceptT.run (if_neg known)

theorem step_checked (instruction : Instruction) (state : RunState) :
    (Checked.step target entry instruction state).run = .ok (step target entry instruction state) := by
  have column (raw : UInt64) := target_column_checked target entry.kind raw
  have given (r : Register) (rule : RegisterRule) :
      (liftM (Checked.giveRule state r rule) : CheckedE RunState).run =
        .ok (.ok (state.setRule r rule)) := by
    rw [give_rule_checked]
    rfl
  cases instruction with
  | setLoc | advanceLoc | defCfaExpression | skipped | nop => rfl
  | defCfa | defCfaSf =>
      exact CheckedE.run_bind (column _) fun _ _ => CheckedE.run_bind (CheckedE.run_lift _) fun _ _ => rfl
  | defCfaRegister => exact CheckedE.run_bind (column _) fun _ _ => rfl
  | defCfaOffset | defCfaOffsetSf => exact CheckedE.run_bind (CheckedE.run_lift _) fun _ _ => rfl
  | undefined | sameValue | expression | valExpression | restore =>
      exact CheckedE.run_bind (column _) fun _ _ => given _ _
  | offset | offsetExtendedSf | negativeOffsetExtended | valOffset | valOffsetSf =>
      exact CheckedE.run_bind (CheckedE.run_lift _) fun _ _ =>
        CheckedE.run_bind (column _) fun _ _ => given _ _
  | register =>
      exact CheckedE.run_bind (column _) fun _ _ => CheckedE.run_bind (column _) fun _ _ => given _ _
  | rememberState =>
      simp only [Checked.step, step]
      cases state.table.remember <;> rfl
  | restoreState =>
      simp only [Checked.step, step]
      cases state.table.restore <;> rfl
  | windowSave =>
      simp only [Checked.step, step]
      split
      · rw [save_window_checked]
        rfl
      · rfl

theorem run_checked (pc : UInt64) (program : List (Except Fault Instruction)) (state : RunState) :
    Checked.run target entry pc program state = .ok (run target entry pc program state) := by
  induction program generalizing state with
  | nil => rfl
  | cons next rest ih =>
      have stepped : (do Checked.step target entry (← next) state : CheckedE RunState).run =
          .ok (next >>= fun instruction => step target entry instruction state) :=
        CheckedE.run_bind (CheckedE.run_lift next) fun instruction _ =>
          step_checked target entry instruction state
      rw [Checked.run, run]
      split
      · rfl
      rw [after_ok stepped]
      cases next >>= fun instruction => step target entry instruction state with
      | error fault => rfl
      | ok after => exact ih after

end Instructions

section Entries

variable (target : Target) (entry : CfiEntry)

structure CfiEntry.Decodes (entry : CfiEntry) : Prop where
  shared : Checked.decode entry entry.cie.program entry.cie.programOffset = .ok entry.initialProgram
  own : Checked.decode entry entry.fde.program entry.fde.programOffset = .ok entry.program

theorem run_entry_checked (decodes : entry.Decodes) (pc : UInt64) (state : RunState) :
    Checked.runEntry target entry pc state = .ok (runEntry target entry pc state) := by
  rw [Checked.runEntry, runEntry, after_ok decodes.shared,
    after_ok (run_checked target entry pc _ state)]
  rcases run target entry pc entry.initialProgram state with ⟨after, _ | fault⟩
  · dsimp only
    rw [after_ok decodes.own]
    exact run_checked target entry pc _ _
  · rfl

theorem seed_count_le_limit : entry.seedCount target ≤ Checked.columnLimit := by
  have few := target.numRegs.toNat_lt
  unfold CfiEntry.seedCount Checked.columnLimit
  cases entry.returnColumn target with
  | ok column =>
      have numbered := column.number.toNat_lt
      dsimp only
      omega
  | error fault => exact Nat.le_of_lt few

theorem num_regs_le_seed_count : target.numRegs.toNat ≤ entry.seedCount target := by
  unfold CfiEntry.seedCount
  cases entry.returnColumn target with
  | ok column => exact Nat.le_max_left _ _
  | error fault => exact Nat.le_refl _

/-- Giving the first columns their rules one by one leaves the others as they are. -/
theorem columns_given (rule : Register → RegisterRule) (held count : Nat)
    (numbered : count ≤ Checked.columnLimit) :
    (List.range count).foldl (fun row number => row.setRule ⟨number.toUInt16⟩ (rule ⟨number.toUInt16⟩))
        (RuleTable.ofColumns held).row =
      { rules := (Array.range count).map (fun number => rule ⟨number.toUInt16⟩) ++
          Array.replicate (held - count) .unspecified } := by
  induction count with
  | zero => simp [RuleTable.ofColumns]
  | succ count ih =>
      have column : (⟨count.toUInt16⟩ : Register).number.toNat = count := by
        unfold Checked.columnLimit at numbered
        simp only [Nat.toUInt16, UInt16.toNat_ofNat']
        omega
      rw [List.range_succ, List.foldl_append, ih (Nat.le_of_succ_le numbered), List.foldl_cons,
        List.foldl_nil, Row.setRule, column]
      simp only [Row.mk.injEq, and_true]
      apply Array.ext_getElem?
      intro i
      simp only [Array.getElem?_setIfInBounds, Array.getElem?_append, Array.getElem?_replicate,
        Array.getElem?_map, Array.size_append, Array.size_map, Array.size_range, Array.size_replicate,
        Array.getElem?_range]
      rcases Nat.lt_trichotomy i count with before | rfl | behind
      · rw [if_neg (Nat.ne_of_gt before), if_pos (Nat.lt_add_right _ before), if_pos before,
          if_pos before, if_pos (Nat.lt_succ_of_lt before), if_pos (Nat.lt_succ_of_lt before)]
      · rw [if_pos rfl, if_pos (by omega), if_pos (Nat.lt_succ_self i), if_pos (Nat.lt_succ_self i)]
        rfl
      · rw [if_neg (Nat.ne_of_lt behind), if_neg (Nat.not_lt.mpr behind)]
        by_cases inside : i < held
        · rw [if_pos (by omega), if_neg (Nat.lt_asymm behind), if_pos (by omega), if_pos (by omega)]
        · rw [if_neg (by omega), if_neg (by omega), if_neg (by omega)]

theorem seed_checked (initReg : Register → RegisterRule) :
    Checked.seed target entry initReg = .ok (entry.seed target initReg) := by
  have few := seed_count_le_limit target entry
  unfold Checked.seed CfiEntry.seed
  generalize (entry.returnColumn target).toOption.getD noColumn = returnColumn
  have filled : (List.range (entry.seedCount target)).foldlM (fun (row : Row) number => do
        let r ← Checked.column number
        Checked.setRule row r (seedRule returnColumn initReg r))
        (RuleTable.ofColumns target.numRegs.toNat).row =
      .ok ((List.range (entry.seedCount target)).foldl (fun row number => row.setRule ⟨number.toUInt16⟩
          (seedRule returnColumn initReg ⟨number.toUInt16⟩))
        (RuleTable.ofColumns target.numRegs.toNat).row) := by
    apply fold_checked
    intro row number member
    have low := List.mem_range.mp member
    rw [Checked.column, after_ok (require_ok (Nat.lt_of_lt_of_le low few) _ _)]
    exact set_rule_checked row _ _
  dsimp only
  rw [after_ok filled, columns_given _ _ _ few,
    Nat.sub_eq_zero_of_le (num_regs_le_seed_count target entry), Array.replicate_zero, Array.append_empty]
  rfl

theorem execute_checked (decodes : entry.Decodes) (initReg : Register → RegisterRule) (pc : UInt64) :
    Checked.execute target entry initReg pc = .ok (execute target entry initReg pc) := by
  have column := target_column_checked target entry.kind entry.cie.returnColumn
  unfold Checked.execute execute CfiEntry.returnColumn
  dsimp only
  rw [after_ok column, after_ok (seed_checked target entry initReg)]
  cases target.column entry.kind entry.cie.returnColumn with
  | error fault => rfl
  | ok returnColumn =>
      dsimp only
      rw [after_ok (run_entry_checked target entry decodes pc _)]
      rcases runEntry target entry pc (entry.seed target initReg) with ⟨after, _ | fault⟩ <;> rfl

theorem listed_checked (items : List (RegisterRule × Nat))
    (numbered : ∀ item ∈ items, item.2 < Checked.columnLimit) :
    (items.filter (·.1 ≠ .unspecified)).mapM (fun (rule, number) => do
        return (← Checked.column number, rule)) =
      Except.ok (items.filterMap fun (rule, column) =>
        if rule = .unspecified then none else some (⟨column.toUInt16⟩, rule)) := by
  induction items with
  | nil => rfl
  | cons item rest ih =>
      obtain ⟨rule, number⟩ := item
      have further := ih fun other member => numbered other (List.mem_cons_of_mem _ member)
      have low : Checked.column number = .ok ⟨number.toUInt16⟩ :=
        require_ok (numbered _ List.mem_cons_self) _ _
      by_cases unspecified : rule = .unspecified
      · rw [List.filter_cons_of_neg (by simpa using unspecified), List.filterMap_cons]
        simp only [if_pos unspecified]
        exact further
      · rw [List.filter_cons_of_pos (by simpa using unspecified), List.filterMap_cons, List.mapM_cons]
        simp only [if_neg unspecified, low]
        exact after_ok further _

/-- No number of a column is cut when the columns of a row are listed. -/
theorem specified_checked (row : Row) (numbered : row.rules.size ≤ Checked.columnLimit) :
    Checked.specified row = .ok row.specified := by
  apply listed_checked
  rintro ⟨rule, number⟩ member
  have inside := (List.mem_zipIdx member).2.1
  simp only [Array.length_toList, Nat.zero_add] at inside
  exact Nat.lt_of_lt_of_le inside numbered

end Entries

end CallFrame
