import ScriptTyping.Scan.Lexeme
import ScriptTyping.Text.Blank
import ScriptTyping.Text.Bytes

/-!
# The depth of brackets

A text is searched for a bracket that opens one level too many. Brackets in comments, quoted texts
and regular expressions do not count. Whether a slash begins a regular expression is told from the
last character before it that is no blank and no part of a comment.
-/

namespace ScriptTyping.Scan

/-- The characters after which a slash begins a regular expression. -/
def beforePattern : List Char :=
  "(,=:[!&|?\x7b\x7d;+-*%<>~^".toList

/-- The text from the first bracket on that opens a level deeper than `limit`, when `depth` levels
are open already and `last` is the last character of code so far. -/
def excess? (limit : Nat) (last : Char) (depth : Nat) : List Char → Option (List Char)
  | [] => none
  | c :: cs =>
    if c = '/' ∧ cs.head? = some '/' then excess? limit last depth (dropLine cs)
    else if c = '/' ∧ cs.head? = some '*' then excess? limit last depth (dropBlock cs.tail)
    else if c = '/' ∧ last ∈ beforePattern then excess? limit '/' depth (dropPattern false cs)
    else if isQuote c then excess? limit c depth (dropQuoted c cs)
    else if c ∈ ['(', '[', '\x7b'] then
      if limit < depth + 1 then some (c :: cs) else excess? limit c (depth + 1) cs
    else if c ∈ [')', ']', '\x7d'] then excess? limit c (depth - 1) cs
    else excess? limit (if Text.isAsciiBlank c then last else c) depth cs
  termination_by cs => cs.length
  decreasing_by
    all_goals
      have line := length_dropLine_le cs
      have block := length_dropBlock_le cs.tail
      have pattern := length_dropPattern_le false cs
      have quoted := length_dropQuoted_le c cs
      have tail : cs.tail.length ≤ cs.length := by simp
      simp only [List.length_cons]
      omega

/-- The text before the first bracket that opens a level deeper than `limit`. -/
def beforeExcess? (limit : Nat) (cs : List Char) : Option (List Char) :=
  (excess? limit ';' 0 cs).map fun rest => cs.take (cs.length - rest.length)

/-- The offset of the first bracket that opens a level deeper than `limit`. -/
def excessOffset? (limit : Nat) (cs : List Char) : Option Nat :=
  (beforeExcess? limit cs).map Text.byteLength

end ScriptTyping.Scan
