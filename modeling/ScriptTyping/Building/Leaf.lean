import ScriptTyping.Building.Part
import ScriptTyping.Number.Literal
import ScriptTyping.Reading.Pieces
import ScriptTyping.Syntax.Escape

/-!
# Names, literals and keys

The builders of nodes that are told by the text of a match alone, and of the keys of properties.
-/

namespace ScriptTyping.Building
open Reading

/-- An identifier. -/
def identifier (e : Extent) : Node :=
  e.node (.identifier e.string)

/-- A private identifier; its name is without the number sign. -/
def privateIdentifier (e : Extent) : Node :=
  e.node (.privateIdentifier (String.ofList (privateName e.text)))

/-- A literal of the given value. -/
def valued (e : Extent) (value : LiteralValue) : Except Fault Node :=
  .ok (e.node (.literal value e.string))

/-- A literal. -/
def literal (r : Rule) (e : Extent) : Except Fault Node :=
  match r with
  | .number =>
    match Literal.number? e.text with
    | some m => valued e (.number m)
    | none => .error (.numberFormat e.string e.site)
  | .bigint => valued e (bigintValue e.text)
  | .string => do
    let body ← slice e.text 1 (Text.byteLength e.text - 1)
    valued e (.string (String.ofList (Syntax.unescape body)))
  | .boolean => valued e (.boolean (e.string = "true"))
  | .null => valued e .null
  | .regex => do
    let close := lastSlash e.text
    let pattern ← slice e.text 1 (max close 1)
    let flags ← slice e.text (close + 1) (Text.byteLength e.text)
    valued e (.regex (String.ofList pattern) (String.ofList flags))
  | .templateLiteral => do
    let body ← slice e.text 1 (Text.byteLength e.text - 1)
    .ok (e.node (.templateLiteral (String.ofList body)))
  | other => unexpected ("Unexpected literal type: " ++ other.name) "typeify.expr.parse_literal_rule" e

/-- The key of a property, and whether it is computed. -/
def propertyKey (r : Rule) (e : Extent) (parts : List Part) : Except Fault (Node × Bool) :=
  match r with
  | .privateIdentifier => .ok (privateIdentifier e, false)
  | _ => do
    let (key, _) ← next e parts
    let key ← key.expression
    .ok (key, r = .computedKey)

end ScriptTyping.Building
