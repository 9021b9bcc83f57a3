import ScriptTyping.Grammar.Rule
import ScriptTyping.Reading.Pieces

/-!
# What the matches of rules stand for

The syntax tree of a script can also be told from the leaves of its parse tree up. Each match of a rule
then stands for a `Phrase`: most for a node of the syntax tree, and the others for what the rule around
them makes a node of. What a phrase is depends on those of the parts alone.
-/

namespace ScriptTyping

/-- What a match of a rule stands for. -/
inductive Phrase where
  /-- The end of the input. -/
  | finish
  /-- A word, an operator or a marker. -/
  | token (text : String)
  | node (n : Node)
  | nodes (ns : List Node)
  /-- An item of a list, or a hole. -/
  | slot (n : Option Node)
  | key (n : Node) (computed : Bool)
  | block (b : Block Node)
  | access (a : Access)
  /-- An operator after its operand. -/
  | update (operator : UpdateOperator) (span : Span)
  | method (m : Method)
  /-- A name that is both key and value. -/
  | shorthand (n : Node)
  /-- A field of a class. -/
  | field (key : Node) (computed : Bool) (value : Option Node)
  | heritage (n : Node)
  | finalizer (n : Node)
  | forInit (n : Node)
  | forTest (n : Node)
  | forUpdate (n : Node)
  | forClassic (init test update : Option Node)
  | forEach (left : Node) (kind : String) (right : Node)
  /-- What is exported. -/
  | exported (f : Form Node)

namespace Phrase

/-- The nodes of phrases that are all nodes. -/
def nodes? (parts : List Phrase) : Option (List Node) :=
  parts.mapM fun
    | node n => some n
    | _ => none

/-- Takes a token off the front, if it is there. -/
def takeToken (text : String) : List Phrase → Bool × List Phrase
  | token t :: parts => if t = text then (true, parts) else (false, token t :: parts)
  | parts => (false, parts)

/-- Takes a node off the front, if one is there. -/
def takeNode : List Phrase → Option Node × List Phrase
  | node n :: parts => (some n, parts)
  | parts => (none, parts)

/-- Takes a list of nodes off the front, if one is there. -/
def takeNodes : List Phrase → List Node × List Phrase
  | nodes ns :: parts => (ns, parts)
  | parts => ([], parts)

/-- The slots of phrases that are all slots. -/
def slots? (parts : List Phrase) : Option (List (Option Node)) :=
  parts.mapM fun
    | slot n => some n
    | _ => none

end Phrase

end ScriptTyping
