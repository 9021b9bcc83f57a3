import ScriptTyping.Scan.Lexeme
import ScriptTyping.Text.Blank

/-!
# Text without its trailing blanks and comments

A phrase whose last part may be left out has already read the blanks and comments after it.
`trimTrailing` takes them off again. It reads the text in rough lexemes, so that what looks like a
comment inside a quoted text is kept.
-/

namespace ScriptTyping.Scan

/-- Whether the first lexeme of a text is code, and what is left after it. -/
def lexeme (c : Char) (cs : List Char) : Bool × List Char :=
  if c = '/' ∧ cs.head? = some '/' then (false, dropLine cs)
  else if c = '/' ∧ cs.head? = some '*' then (false, dropBlock cs.tail)
  else if isQuote c then (true, dropQuoted c cs)
  else if c = '\\' then (true, cs.tail)
  else (!Text.isAsciiBlank c, cs)

theorem length_lexeme_le (c : Char) (cs : List Char) : (lexeme c cs).2.length ≤ cs.length := by
  unfold lexeme
  have line := length_dropLine_le cs
  have block := length_dropBlock_le cs.tail
  have quoted := length_dropQuoted_le c cs
  have tail : cs.tail.length ≤ cs.length := by simp
  repeat' split
  all_goals simp only []
  all_goals omega

/-- What is left of a text after its last lexeme that is code; `rest` when it has none. -/
def afterCode (rest : List Char) : List Char → List Char
  | [] => rest
  | c :: cs => afterCode (if (lexeme c cs).1 then (lexeme c cs).2 else rest) (lexeme c cs).2
  termination_by cs => cs.length
  decreasing_by
    have := length_lexeme_le c cs
    simp only [List.length_cons]
    omega

/-- A text up to the end of its last lexeme that is code. -/
def trimTrailing (cs : List Char) : List Char :=
  cs.take (cs.length - (afterCode cs cs).length)

end ScriptTyping.Scan
