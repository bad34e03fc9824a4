import CallFrame.Proofs.AddressRule
import CallFrame.Proofs.ReturnAddress

/-!
What the rule table is held to while programs run. Rows grow by the columns that programs name, and those
are not far beyond the target's; a row that is brought back is one of the same kind; and only so many rows
are remembered. So the memory that interpreting takes is bounded, whatever the programs are, and the return
address has a rule in every row.
-/

namespace CallFrame

variable {target : Target} {entry : CfiEntry} {initReg : Register → RegisterRule} {pc : UInt64}
  {column : Register} {state after : RunState}

/-! What every step keeps. -/
section Invariants

variable {holds : RunState → Prop}

/-- What the state before any program has, every step keeps, and handing over to the second program does not
break, is so of every state that interpreting comes to. -/
theorem reached_keeps
    (steps : ∀ instruction before after, holds before → step target entry instruction before = .ok after →
      holds after)
    (handed : ∀ state, holds state → holds state.handOver) (seeded : holds (entry.seed target initReg))
    {rest : List Instruction} (reached : Reaches target entry initReg pc state rest) : holds state := by
  cases reached with
  | inShared before behind ran carried => exact carry_out_keeps (fun other _ => steps other) seeded carried
  | inOwn before behind shared ended ran carried =>
      have begun := handed shared (carry_out_keeps (fun other _ => steps other) seeded ended)
      exact carry_out_keeps (fun other _ => steps other) begun carried

end Invariants

/-! The bounds of a row. -/
section Rows

/-- The row has the target's columns, at most 128 more, none without a number, and a rule for the return
column. -/
structure Row.Bounded (target : Target) (column : Register) (row : Row) : Prop where
  least : target.numRegs.toNat ≤ row.rules.size
  most : row.rules.size ≤ min (target.numRegs.toNat + 128) 65536
  returns : row.rule column ≠ .unspecified

/-- A column that a program may name fits in. -/
theorem bounded_set_rule {row : Row} {r : Register} {rule : RegisterRule} (bounded : row.Bounded target column)
    (named : target.Names r) (returns : (row.setRule r rule).rule column ≠ .unspecified) :
    (row.setRule r rule).Bounded target column := by
  have numbered : r.number.toNat < 65536 := r.number.toNat_lt
  have least := bounded.least
  have most := bounded.most
  unfold Target.Names Target.extraColumns at named
  refine ⟨?_, ?_, returns⟩ <;> rw [Row.size_set_rule] <;> omega

theorem bounded_stable (target : Target) (column : Register) : Stable target (Row.Bounded target column) where
  cfa _ _ bounded := ⟨bounded.least, bounded.most, bounded.returns⟩
  defined row r rule bounded named programmed :=
    bounded_set_rule bounded named
      ((specified_stable target column).defined row r rule bounded.returns named programmed)
  restored row source r bounded initial named :=
    bounded_set_rule bounded named
      ((specified_stable target column).restored row source r bounded.returns initial.returns named)

/-- The return column is one of those that a program may name. -/
theorem seed_bounded (inRange : entry.returnColumn target = .ok column) :
    (entry.seed target initReg).table.row.Bounded target column := by
  have named : target.Names column := column_names inRange
  have numbered : column.number.toNat < 65536 := column.number.toNat_lt
  have few := target.numRegs.toNat_lt
  have size : (entry.seed target initReg).table.row.rules.size =
      max target.numRegs.toNat (column.number.toNat + 1) := by
    simp [CfiEntry.seed, CfiEntry.seedCount, inRange]
  unfold Target.Names Target.extraColumns at named
  refine ⟨?_, ?_, seed_column_specified initReg column inRange⟩ <;> rw [size] <;> omega

end Rows

/-! The bounds of a table. -/
section Tables

structure RunState.Bounded (target : Target) (column : Register) (state : RunState) : Prop where
  rows : state.Holds (Row.Bounded target column)
  depth : state.table.remembered.length ≤ 64

theorem remember_depth (carried : step target entry .rememberState state = .ok after) :
    state.table.remembered.length < maxRemembered := by
  by_contra full
  have refused : state.table.remember = none := if_pos (Nat.le_of_not_lt full)
  simp only [step, refused] at carried
  cases carried

theorem restore_depth (carried : step target entry .restoreState state = .ok after) :
    after.table.remembered.length ≤ state.table.remembered.length := by
  cases held : state.table.remembered with
  | nil =>
      simp only [step, RuleTable.restore, held] at carried
      cases carried
      exact Nat.le_of_eq (congrArg List.length held)
  | cons row older =>
      rw [step_restore held carried]
      exact Nat.le_succ _

/-- No instruction remembers a row where there is no room for it. -/
theorem step_depth (instruction : Instruction) (few : state.table.remembered.length ≤ maxRemembered)
    (carried : step target entry instruction state = .ok after) :
    after.table.remembered.length ≤ maxRemembered := by
  by_cases exchange : instruction.ExchangesRows
  · rcases exchange with rfl | rfl
    · have room := remember_depth carried
      rw [step_remember carried]
      exact room
    · exact Nat.le_trans (restore_depth carried) few
  · rw [(step_settles instruction exchange after carried).remembered]
    exact few

theorem step_bounded (instruction : Instruction) (before after : RunState)
    (bounded : before.Bounded target column) (carried : step target entry instruction before = .ok after) :
    after.Bounded target column where
  rows := step_keeps (bounded_stable target column).within instruction (fun _ _ => trivial) before bounded.rows
    after carried
  depth := step_depth instruction bounded.depth carried

theorem reached_bounded (inRange : entry.returnColumn target = .ok column) {rest : List Instruction}
    (reached : Reaches target entry initReg pc state rest) : state.Bounded target column := by
  have seeded := @seed_bounded target entry initReg column inRange
  apply reached_keeps step_bounded ?_ ⟨⟨seeded, by rintro row ⟨⟩, seeded⟩, Nat.zero_le _⟩ reached
  intro state bounded
  exact ⟨⟨bounded.rows.row, bounded.rows.remembered, bounded.rows.row⟩, bounded.depth⟩

end Tables

/-- Let the return column of a function be in range. In every state that interpreting it for an address comes
to, from the one before any program on, the row under construction, every remembered row and the row that
restoring goes back to have all columns of the target, at most 128 more, and a rule for the return column,
and no more than 64 rows are remembered. The row that interpreting yields is such a row, and that column is
the return column that comes with it. -/
theorem tables_bounded (target : Target) (entry : CfiEntry) (initReg : Register → RegisterRule) (pc : UInt64)
    (column : Register) (inRange : entry.returnColumn target = .ok column) :
    (∀ state rest, Reaches target entry initReg pc state rest →
      (∀ row ∈ state.table.row :: state.initial :: state.table.remembered,
        target.numRegs.toNat ≤ row.rules.size ∧
          row.rules.size ≤ min (target.numRegs.toNat + 128) 65536 ∧ row.rule column ≠ .unspecified) ∧
      state.table.remembered.length ≤ 64) ∧
    (execute target entry initReg pc).1.returnColumn = column ∧
      (execute target entry initReg pc).1.row.Bounded target column := by
  refine ⟨fun state rest reached => ?_, ?_, ?_⟩
  · have bounded := reached_bounded inRange reached
    refine ⟨fun row member => ?_, bounded.depth⟩
    have held : row.Bounded target column := by
      rcases List.mem_cons.mp member with rfl | member
      · exact bounded.rows.row
      rcases List.mem_cons.mp member with rfl | member
      · exact bounded.rows.initial
      · exact bounded.rows.remembered row member
    exact ⟨held.least, held.most, held.returns⟩
  · simp only [execute, inRange]
    split <;> rfl
  · exact execute_row (bounded_stable target column) initReg pc (seed_bounded inRange)

def widestFrame : CfiEntry :=
  { growingFrame with fde := { growingFrame.fde with program := [0x2d, 0x0a, 0x07, 0x90, 1] } }

theorem tables_bounded_widest :
    let target := { smallTarget with registerWindows := true }
    widestFrame.returnColumn target = .ok ⟨16⟩ ∧
      ∃ state, Reaches target widestFrame (fun _ => .unspecified) 0x1000 state [] ∧
        (state.table.row :: state.initial :: state.table.remembered).map (·.rules.size) = [145, 17, 32] ∧
        (∀ row ∈ state.table.row :: state.initial :: state.table.remembered, row.rule ⟨16⟩ ≠ .unspecified) ∧
        (execute target widestFrame (fun _ => .unspecified) 0x1000).1.row.rules.size ≤ 145 := by
  intro target
  have inRange : widestFrame.returnColumn target = .ok ⟨16⟩ := rfl
  obtain ⟨reaching, -, yields⟩ := tables_bounded target widestFrame (fun _ => .unspecified) 0x1000 ⟨16⟩ inRange
  obtain ⟨shared, state, ended, carried, -⟩ :=
    @executed_carried target widestFrame (fun _ => .unspecified) 0x1000
  have reached : Reaches target widestFrame (fun _ => .unspecified) 0x1000 state [] :=
    .inOwn _ [] shared ended (List.append_nil _).symm carried
  refine ⟨inRange, state, reached, ?_, fun row member => ((reaching state [] reached).1 row member).2.2,
    yields.most⟩
  have sizes : (do
      let ran := executed target widestFrame (fun _ => .unspecified) 0x1000
      let shared ← carryOut target widestFrame ran.shared (widestFrame.seed target fun _ => .unspecified)
      let state ← carryOut target widestFrame ran.own shared.handOver
      return (state.table.row :: state.initial :: state.table.remembered).map (Array.size ∘ Row.rules)).toOption
      = some [145, 17, 32] := by decide +kernel
  simp only [ended, carried, bind, Except.bind] at sizes
  exact Option.some.inj sizes

end CallFrame
