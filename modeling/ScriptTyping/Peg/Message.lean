import ScriptTyping.Peg.Attempts

/-!
# What a rejected text is told

The message names the rules that were expected at the furthest place and those that were not
wanted there, each list in the order of the grammar and without repetitions.
-/

namespace ScriptTyping.Peg

variable {R : Type}

/-- The members of a list in the order of `all`, each once. -/
def inOrder [DecidableEq R] (all rules : List R) : List R :=
  all.filter (· ∈ rules)

/-- Names in a sentence: one alone, two joined by `or`, more with commas and an `or` before the
last. -/
def enumerate : List String → String
  | [] => ""
  | [a] => a
  | [a, b] => a ++ " or " ++ b
  | names => String.intercalate ", " names.dropLast ++ ", or " ++ names.getLast?.getD ""

/-- What to say of the rules expected and the rules not wanted. -/
def complaint : (expected unexpected : List String) → String
  | [], [] => "unknown parsing error"
  | expected, [] => "expected " ++ enumerate expected
  | [], unexpected => "unexpected " ++ enumerate unexpected
  | expected, unexpected =>
    "unexpected " ++ enumerate unexpected ++ "; expected " ++ enumerate expected

/-- The message for a rejected text, given the rules in order and their names. -/
def Attempts.message [DecidableEq R] (a : Attempts R) (all : List R) (name : R → String) :
    String :=
  complaint ((inOrder all a.expected).map name) ((inOrder all a.unexpected).map name)

end ScriptTyping.Peg
