import CallFrame.Text.Hex
import CallFrame.Text.Unprintable

/-!
Text between double quotes, as it is quoted in messages: a reader can tell every character of it,
also one that would leave no mark.
-/

namespace CallFrame.Quoted

/-- A single quote needs no escape; characters without a mark are written by code point. -/
def escape : Char → List Char
  | '\x00' => ['\\', '0']
  | '\t' => ['\\', 't']
  | '\n' => ['\\', 'n']
  | '\r' => ['\\', 'r']
  | '"' => ['\\', '"']
  | '\\' => ['\\', '\\']
  | c =>
    if isUnprintable c then '\\' :: 'u' :: '\x7b' :: hexDigits c.toNat ++ ['\x7d']
    else [c]

end CallFrame.Quoted

namespace CallFrame

def quoted (text : String) : String :=
  String.ofList ('"' :: text.toList.flatMap Quoted.escape ++ ['"'])

end CallFrame
