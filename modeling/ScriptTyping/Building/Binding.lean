import ScriptTyping.Building.Leaf

/-!
# Bindings and parameters

The builders of what a declaration or a parameter binds.
-/

namespace ScriptTyping.Building
open Reading

/-- A binding with a default, or alone. -/
def bindingElement (e : Extent) (parts : List Part) : Except Fault Node := do
  let (bound, parts) ← next e parts
  let bound ← bound.target
  match ← optional Part.expression parts with
  | some value => .ok (e.node (.assignmentPattern bound value))
  | none => .ok bound

/-- A binding for all that is left. -/
def restElement (e : Extent) (parts : List Part) : Except Fault Node := do
  let (bound, _) ← next e parts
  let bound ← bound.target
  .ok (e.node (.restElement bound))

/-- A parameter, or an item of an array pattern. -/
def parameter (m : Part) : Except Fault Node :=
  match m.rule with
  | .restElement => restElement m.extent m.parts
  | _ => bindingElement m.extent m.parts

/-- The parameters of a function. -/
def parameterList (parts : List Part) : Except Fault (List Node) :=
  parts.mapM parameter

/-- A property of an object pattern: a binding for the rest, a name that is key and binding, or a
key and a binding. -/
def patternProperty (e : Extent) (parts : List Part) : Except Fault Node := do
  let (first, parts) ← next e parts
  match first.rule with
  | .restElement => restElement first.extent first.parts
  | .bindingElement =>
    let value ← bindingElement first.extent first.parts
    .ok (e.node (.property (shorthandKey value) value .init false true false))
  | rule =>
    let (key, computed) ← propertyKey rule first.extent first.parts
    let (value, _) ← next e parts
    let value ← bindingElement value.extent value.parts
    .ok (e.node (.property key value .init false false computed))

/-- An object pattern. -/
def objectPattern (e : Extent) (parts : List Part) : Except Fault Node := do
  let properties ← parts.mapM fun m => patternProperty m.extent m.parts
  .ok (e.node (.objectPattern properties))

/-- An array pattern. -/
def arrayPattern (e : Extent) (parts : List Part) : Except Fault Node := do
  let elements ← parts.mapM fun m => optional parameter m.parts
  .ok (e.node (.arrayPattern (withoutLastHole elements)))

/-- The target of a binding: a name or a pattern. -/
def target (r : Rule) (e : Extent) (parts : List Part) : Except Fault Node :=
  match r with
  | .identifier => .ok (identifier e)
  | .objectPattern => objectPattern e parts
  | .arrayPattern => arrayPattern e parts
  | other =>
    unexpected ("Unexpected binding target: " ++ other.name)
      "typeify.ast.func.parse_binding_target_rule" e

end ScriptTyping.Building
