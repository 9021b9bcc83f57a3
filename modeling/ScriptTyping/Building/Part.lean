import ScriptTyping.Grammar.Rule
import ScriptTyping.Reading.Extent
import ScriptTyping.Reading.Fault

/-!
# Matches as builders take them

A builder makes a node of a match of a rule. It is given where the match lies and the matches inside
it, its parts, and takes the parts one after the other. A part is told by its rule; of a part that
may be one of many sorts a builder asks what it is as a statement, as an expression or as the target
of a binding, and these a match carries with it.
-/

namespace ScriptTyping.Building

/-- A match: its rule, where it lies, its parts, and what it is as a statement, as an expression and
as the target of a binding. -/
inductive Part where
  | mk (rule : Rule) (extent : Extent) (parts : List Part)
    (statement expression target : Except Fault Node)

namespace Part

/-- The rule that matched. -/
def rule : Part → Rule
  | mk r .. => r

/-- Where a match lies. -/
def extent : Part → Extent
  | mk _ e .. => e

/-- The matches inside. -/
def parts : Part → List Part
  | mk _ _ ms .. => ms

/-- What a match is where a statement is expected. -/
def statement : Part → Except Fault Node
  | mk _ _ _ s _ _ => s

/-- What a match is where an expression is expected. -/
def expression : Part → Except Fault Node
  | mk _ _ _ _ x _ => x

/-- What a match is where the target of a binding is expected. -/
def target : Part → Except Fault Node
  | mk _ _ _ _ _ t => t

end Part

/-- The fault of a builder that does not expect a match. -/
def unexpected {α : Type} (message issuer : String) (e : Extent) : Except Fault α :=
  .error (.unexpected message issuer e.site)

/-- The first of the parts that are left of a match, and those after it. -/
def next (e : Extent) : List Part → Except Fault (Part × List Part)
  | m :: ms => .ok (m, ms)
  | [] => .error (.lacking e.site)

/-- What the first part is, if there is one. -/
def optional {α : Type} (f : Part → Except Fault α) : List Part → Except Fault (Option α)
  | m :: _ => (f m).map some
  | [] => .ok none

/-- The text between two offsets. -/
def slice (cs : List Char) (start stop : Nat) : Except Fault (List Char) :=
  match Text.slice? cs start stop with
  | some part => .ok part
  | none => .error .panicked

end ScriptTyping.Building
