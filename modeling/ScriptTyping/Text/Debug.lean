import ScriptTyping.Text.Mark
import ScriptTyping.Text.Printable
import ScriptTyping.Text.Quoted

/-!
# Text quoted for inspection

A text between double quotes in which whatever cannot be seen is spelled out: quotes and backslashes
after a backslash, the usual control characters by a letter, and all others by their code point in
braces.
-/

namespace ScriptTyping.Text

/-- Characters without a shape of their own, but for space. -/
def isUnseen (c : Char) : Bool :=
  !isPrintable c || isMark c || isIgnorable c

/-- One character as it stands between the quotes. -/
def debugChar (c : Char) : List Char :=
  match c with
  | '"' => ['\\', '"']
  | '\\' => ['\\', '\\']
  | '\n' => ['\\', 'n']
  | '\r' => ['\\', 'r']
  | '\t' => ['\\', 't']
  | '\x00' => ['\\', '0']
  | c =>
    if isUnseen c then '\\' :: 'u' :: '\x7b' :: (Nat.toDigits 16 c.toNat ++ ['\x7d']) else [c]

/-- A text between quotes, for inspection. -/
def debugQuoted (s : String) : String :=
  String.ofList ('"' :: (s.toList.flatMap debugChar ++ ['"']))

end ScriptTyping.Text
