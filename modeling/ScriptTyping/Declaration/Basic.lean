import ScriptTyping.Kind
import ScriptTyping.Problem
import ScriptTyping.Syntax.Operator
import ScriptTyping.Text.Bytes

/-!
# Declarations

What is known of a variable and of a function that a script declares.
-/

namespace ScriptTyping

/-- A declared variable, with the source text of its first value if that is to be shown. -/
structure Variable where
  name : String
  kind : DeclarationKind
  type : Kind
  value : Option String
  location : Option Location
  deriving DecidableEq

/-- A parameter of a function. -/
structure Parameter where
  name : String
  type : Kind
  isRest : Bool
  deriving DecidableEq

namespace Parameter

/-- A parameter for one argument. -/
def single (name : String) : Parameter :=
  { name, type := .any, isRest := false }

/-- A parameter for all arguments that are left. -/
def rest (name : String) : Parameter :=
  { name, type := .array .any, isRest := true }

/-- A parameter with its type. -/
def text (p : Parameter) : String :=
  (if p.isRest then "..." else "") ++ p.name ++ ": " ++ p.type.text

end Parameter

/-- A declared function. `range` is the stretch of bytes from its first statement to the end of its
last, and missing when there are none. -/
structure Routine where
  name : String
  params : List Parameter
  range : Option (Nat × Nat)
  returns : Kind
  location : Option Location
  deriving DecidableEq

namespace Routine

/-- The name of a function that has none. -/
def anonymous : String := "anonymous"

/-- The parameters with commas between them. -/
def paramText (r : Routine) : String :=
  String.intercalate ", " (r.params.map Parameter.text)

/-- The text of the statements; none when there are none, or when the range does not fall on
characters of the source. -/
def bodyText? (r : Routine) (source : String) : Option String :=
  r.range.bind fun (start, stop) => Text.sliceString? source start stop

end Routine

end ScriptTyping
