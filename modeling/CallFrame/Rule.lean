import CallFrame.Register

/-!
Rules: how the value that a register had in the caller is found, and how the canonical frame address
is. Both have a text form that shows every operand.
-/

namespace CallFrame

inductive RegisterRule where
  /-- Nothing was said about the register. -/
  | unspecified
  /-- The value is lost. -/
  | undefined
  /-- Saved at the frame address plus an offset. -/
  | savedAtOffset (offset : Int64)
  | savedInRegister (register : Register)
  | savedByExpression (expression : Expression)
  /-- Not changed by the callee. -/
  | sameValue
  /-- The value is the frame address plus an offset. -/
  | savedValueAtOffset (offset : Int64)
  | savedValueByExpression (expression : Expression)
  /-- Computed by a function that the architecture knows by name. -/
  | callFunction (name : String)
  /-- Whatever the return address column says. -/
  | returnAddress
  | returnAddressAtOffset (offset : Int64)
  | cfaValue
  /-- The value is the frame address plus an offset, by the architecture's word. -/
  | cfaValueAtOffset (offset : Int64)
  deriving DecidableEq

inductive CfaRule where
  | registerAndOffset (register : Register) (offset : Int64)
  | expression (expression : Expression)
  deriving DecidableEq

def Register.described (r : Register) : String := s!"Register({r.number.toNat})"

def Expression.described (e : Expression) : String :=
  let pairs := String.intercalate ", " (e.code.map fun b => String.ofList (hexPair b))
  s!"Expr([{pairs}])"

def RegisterRule.described : RegisterRule → String
  | .unspecified => "Unspecified"
  | .undefined => "Undefined"
  | .savedAtOffset offset => s!"SavedAtOffset({offset.toInt})"
  | .savedInRegister register => s!"SavedInRegister({register.described})"
  | .savedByExpression expression => s!"SavedByExpression({expression.described})"
  | .sameValue => "SameValue"
  | .savedValueAtOffset offset => s!"SavedValueAtOffset({offset.toInt})"
  | .savedValueByExpression expression => s!"SavedValueByExpression({expression.described})"
  | .callFunction name => s!"CallRegisteredFunction(RegisterFn({name}))"
  | .returnAddress => "ReturnAddress"
  | .returnAddressAtOffset offset => s!"ReturnAddressAtOffset({offset.toInt})"
  | .cfaValue => "CfaValue"
  | .cfaValueAtOffset offset => s!"CfaValueAtOffset({offset.toInt})"

def CfaRule.described : CfaRule → String
  | .registerAndOffset register offset =>
    s!"RegisterAndOffset \x7b register: {register.described}, offset: {offset.toInt} \x7d"
  | .expression e => s!"Expression({e.described})"

end CallFrame
