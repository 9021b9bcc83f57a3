/-!
# Rough lexemes

Scanners that find where a comment, a quoted text or a regular expression ends, without regard to
the phrase it stands in. Each answers with what is left of the text; `length_dropLine_le` and its
companions say that this is no more than what it was given.
-/

namespace ScriptTyping.Scan

/-- What is left from the end of the line on. -/
def dropLine : List Char → List Char
  | [] => []
  | '\n' :: cs => '\n' :: cs
  | _ :: cs => dropLine cs

/-- What is left after the end of a block comment; nothing when it has no end. -/
def dropBlock : List Char → List Char
  | [] => []
  | '*' :: '/' :: cs => cs
  | _ :: cs => dropBlock cs

/-- What is left after the closing quote; a backslash takes the next character with it. Nothing is
left when there is no closing quote. -/
def dropQuoted (quote : Char) : List Char → List Char
  | [] => []
  | c :: cs =>
    if c = quote then cs
    else if c = '\\' then
      match cs with
      | [] => []
      | _ :: cs => dropQuoted quote cs
    else dropQuoted quote cs

/-- What is left after the slash that closes a regular expression, or from the end of the line on
when the line has none. A slash in brackets does not close it, and a backslash takes the next
character with it. -/
def dropPattern (inBrackets : Bool) : List Char → List Char
  | [] => []
  | '\n' :: cs => '\n' :: cs
  | c :: cs =>
    if c = '\\' then
      match cs with
      | [] => []
      | _ :: cs => dropPattern inBrackets cs
    else if c = '[' then dropPattern true cs
    else if c = ']' then dropPattern false cs
    else if c = '/' ∧ inBrackets = false then cs
    else dropPattern inBrackets cs

/-- Whether a character opens a quoted text. -/
def isQuote (c : Char) : Bool :=
  c == '"' || c == '\'' || c == '\x60'

theorem length_dropLine_le (cs : List Char) : (dropLine cs).length ≤ cs.length := by
  fun_induction dropLine cs <;> simp_all
  omega

theorem length_dropBlock_le (cs : List Char) : (dropBlock cs).length ≤ cs.length := by
  fun_induction dropBlock cs <;> simp_all <;> omega

theorem length_dropQuoted_le (quote : Char) (cs : List Char) :
    (dropQuoted quote cs).length ≤ cs.length := by
  fun_induction dropQuoted quote cs <;> simp_all <;> omega

theorem length_dropPattern_le (inBrackets : Bool) (cs : List Char) :
    (dropPattern inBrackets cs).length ≤ cs.length := by
  fun_induction dropPattern inBrackets cs <;> simp_all <;> omega

end ScriptTyping.Scan
