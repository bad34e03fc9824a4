import CallFrame.Frame

/-!
Just enough of a stack machine for the location expressions that frame descriptions use: small
constants, a register plus an offset, adding a constant, and loading.
-/

namespace CallFrame.StackEvaluator

/-- Runs at most `fuel` operations; the result is on top of the stack at the end. A register is read
before the offset that follows it. -/
def evaluateFrom (frame : Frame) : Nat → List UInt8 → List UInt64 → UnwindM UInt64
  | _, [], top :: _ => return top
  | _, [], [] => throw .emptyStack
  | 0, _ :: _, _ => throw .emptyStack
  | fuel + 1, opcode :: operands, stack =>
    if 0x30 ≤ opcode ∧ opcode ≤ 0x4f then
      evaluateFrom frame fuel operands ((opcode - 0x30).toUInt64 :: stack)
    else if 0x70 ≤ opcode ∧ opcode ≤ 0x8f then do
      let base ← frame.readRegister ⟨(opcode - 0x70).toUInt16⟩
      match Leb128.lenient true operands with
      | none => throw .truncatedOperand
      | some (offset, rest) => evaluateFrom frame fuel rest ((base + offset) :: stack)
    else if opcode = 0x23 then
      match Leb128.lenient false operands, stack with
      | none, _ => throw .truncatedOperand
      | some _, [] => throw .addToEmptyStack
      | some (addend, rest), top :: below => evaluateFrom frame fuel rest ((top + addend) :: below)
    else if opcode = 0x06 then
      match stack with
      | [] => throw .loadFromEmptyStack
      | address :: below => do
        let value ← frame.readAddress address
        evaluateFrom frame fuel operands (value :: below)
    else throw (.unsupportedOperation opcode)

end CallFrame.StackEvaluator

namespace CallFrame

def stackEvaluator : Evaluator := fun expression frame initial _ =>
  StackEvaluator.evaluateFrom frame expression.code.length expression.code initial.toList

end CallFrame
