import CallFrame.Rule

/-!
One row of the unwind table: a rule for every column and one for the canonical frame address. A row
under construction can be remembered and brought back.
-/

namespace CallFrame

structure Row where
  rules : Array RegisterRule := #[]
  cfa : Option CfaRule := none

namespace Row

/-- The rule of a column; a column that the row does not have is unspecified. -/
def rule (row : Row) (r : Register) : RegisterRule :=
  row.rules.getD r.number.toNat .unspecified

/-- Gives a column a rule. A column past the end grows the row: programs may describe columns that
are no machine registers. -/
def setRule (row : Row) (r : Register) (rule : RegisterRule) : Row :=
  let missing := r.number.toNat + 1 - row.rules.size
  let rules := row.rules ++ Array.replicate missing .unspecified
  { row with rules := rules.setIfInBounds r.number.toNat rule }

def specified (row : Row) : List (Register × RegisterRule) :=
  row.rules.toList.zipIdx.filterMap fun (rule, column) =>
    if rule = .unspecified then none else some (⟨column.toUInt16⟩, rule)

end Row

def maxRemembered : Nat := 64

/-- The row under construction and the remembered ones, the last one first. -/
structure RuleTable where
  row : Row := {}
  remembered : List Row := []

namespace RuleTable

def ofColumns (count : Nat) : RuleTable where
  row := { rules := Array.replicate count .unspecified }

def setRule (table : RuleTable) (r : Register) (rule : RegisterRule) : RuleTable :=
  { table with row := table.row.setRule r rule }

def setCfa (table : RuleTable) (cfa : CfaRule) : RuleTable :=
  { table with row := { table.row with cfa := some cfa } }

def remember (table : RuleTable) : Option RuleTable :=
  if maxRemembered ≤ table.remembered.length then none
  else some { table with remembered := table.row :: table.remembered }

def restore (table : RuleTable) : Option RuleTable :=
  match table.remembered with
  | [] => none
  | row :: remembered => some { row, remembered }

end RuleTable

end CallFrame
