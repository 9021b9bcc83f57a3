import ScriptTyping.Number.Layout
import ScriptTyping.Text.Quoted

/-!
# JSON texts

A value of JSON and two ways to write it: `compact` without any blanks, and `pretty` with one
member or item to a line, indented by two spaces for each level. Each writes a value in front of
the text that follows it, so that a deep value takes no longer than its text.
-/

namespace ScriptTyping

/-- A value of JSON. An object keeps its members in order. -/
inductive Json where
  | null
  | bool (b : Bool)
  | nat (n : Nat)
  | magnitude (m : Magnitude)
  | string (s : String)
  | array (items : List Json)
  | object (members : List (String × Json))

namespace Json

/-- The text of a value that is neither an array nor an object. -/
def scalar : Json → List Char
  | null => "null".toList
  | bool b => if b then "true".toList else "false".toList
  | nat n => Nat.toDigits 10 n
  | magnitude m => m.jsonText.toList
  | string s => Text.quoted s.toList
  | _ => []

/-- A key with its colon. -/
def keyText (k : String) (after : List Char) : List Char :=
  Text.quoted k.toList ++ ':' :: after

mutual

/-- A value without blanks. -/
def compact : Json → (after : List Char) → List Char
  | array items, after => '[' :: compactItems items (']' :: after)
  | object members, after => '\x7b' :: compactMembers members ('\x7d' :: after)
  | j, after => scalar j ++ after

/-- Items with commas between them. -/
def compactItems : List Json → (after : List Char) → List Char
  | [], after => after
  | [j], after => compact j after
  | j :: js, after => compact j (',' :: compactItems js after)

/-- Members with commas between them. -/
def compactMembers : List (String × Json) → (after : List Char) → List Char
  | [], after => after
  | [(k, j)], after => keyText k (compact j after)
  | (k, j) :: ms, after => keyText k (compact j (',' :: compactMembers ms after))

end

/-- A new line at a level. -/
def newLine (level : Nat) (after : List Char) : List Char :=
  '\n' :: (List.replicate (2 * level) ' ' ++ after)

mutual

/-- A value at a level of indentation. -/
def pretty (level : Nat) : Json → (after : List Char) → List Char
  | array [], after => '[' :: ']' :: after
  | array (j :: js), after =>
    '[' :: prettyItems (level + 1) (j :: js) (newLine level (']' :: after))
  | object [], after => '\x7b' :: '\x7d' :: after
  | object (m :: ms), after =>
    '\x7b' :: prettyMembers (level + 1) (m :: ms) (newLine level ('\x7d' :: after))
  | j, after => scalar j ++ after

/-- Items on lines of their own. -/
def prettyItems (level : Nat) : List Json → (after : List Char) → List Char
  | [], after => after
  | [j], after => newLine level (pretty level j after)
  | j :: js, after => newLine level (pretty level j (',' :: prettyItems level js after))

/-- Members on lines of their own. -/
def prettyMembers (level : Nat) : List (String × Json) → (after : List Char) → List Char
  | [], after => after
  | [(k, j)], after => newLine level (keyText k (' ' :: pretty level j after))
  | (k, j) :: ms, after =>
    newLine level (keyText k (' ' :: pretty level j (',' :: prettyMembers level ms after)))

end

/-- The text without blanks. -/
def compactText (j : Json) : String :=
  String.ofList (j.compact [])

/-- The text with a line for each member and item. -/
def prettyText (j : Json) : String :=
  String.ofList (j.pretty 0 [])

end Json

end ScriptTyping
