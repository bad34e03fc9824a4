import CallFrame.Text.Hex

/-!
What call frame information talks about: register columns, and location expressions that only an
evaluator can interpret.
-/

namespace CallFrame

structure Register where
  number : UInt16
  deriving DecidableEq

def Register.text (r : Register) : String := s!"r{r.number.toNat}"

structure Expression where
  code : List UInt8
  deriving DecidableEq

end CallFrame
