import ScriptTyping.Building.Binding

/-!
# Functions, methods and classes

Their builders go through the parts and note each in a record of what has been met; at the end the
parts that a node cannot do without must have been met.
-/

namespace ScriptTyping.Building
open Reading

/-- The statements of a function. -/
def functionBody (e : Extent) (parts : List Part) : Except Fault (Block Node) := do
  let statements ← parts.mapM Part.statement
  .ok { statements, span := some e.span }

/-- What has been met of a function with a keyword. -/
structure FunctionParts where
  isAsync : Bool
  isGenerator : Bool
  id : Option Node
  params : List Node
  body : Option (Block Node)

/-- Nothing of a function. -/
def FunctionParts.none : FunctionParts :=
  { isAsync := false, isGenerator := false, id := .none, params := [], body := .none }

/-- Notes one part of a function. -/
def FunctionParts.note (f : FunctionParts) (m : Part) : Except Fault FunctionParts :=
  match m.rule with
  | .asyncModifier => .ok { f with isAsync := true }
  | .generatorMarker => .ok { f with isGenerator := true }
  | .identifier => .ok { f with id := some (identifier m.extent) }
  | .parameterList => do
    let params ← parameterList m.parts
    .ok { f with params }
  | .functionBody => do
    let body ← functionBody m.extent m.parts
    .ok { f with body := some body }
  | other =>
    unexpected ("Unexpected function part: " ++ other.name) "typeify.ast.func.parse_function_rule"
      m.extent

/-- The parts of a function with a keyword. -/
def function (e : Extent) (parts : List Part) : Except Fault (Function Node) := do
  let f ← parts.foldlM FunctionParts.note .none
  match f.body with
  | some body =>
    .ok { id := f.id, params := f.params, body, isGenerator := f.isGenerator, isAsync := f.isAsync }
  | none => unexpected "Function without a body." "typeify.ast.func.parse_function_rule" e

/-- What has been met of an arrow function. -/
structure ArrowParts where
  isAsync : Bool
  params : List Node
  body : Option Node
  isExpression : Bool

/-- Nothing of an arrow function. -/
def ArrowParts.none : ArrowParts :=
  { isAsync := false, params := [], body := .none, isExpression := false }

/-- Notes the parameters of an arrow function: a name, or a list. -/
def arrowParameter (params : List Node) (m : Part) : Except Fault (List Node) :=
  match m.rule with
  | .identifier => .ok (params ++ [identifier m.extent])
  | _ => parameterList m.parts

/-- Notes one part of an arrow function. -/
def ArrowParts.note (a : ArrowParts) (m : Part) : Except Fault ArrowParts :=
  match m.rule with
  | .asyncModifier => .ok { a with isAsync := true }
  | .arrowParameters => do
    let params ← m.parts.foldlM arrowParameter a.params
    .ok { a with params }
  | .functionBody => do
    let b ← functionBody m.extent m.parts
    .ok { a with body := some (blockNode b) }
  | _ => do
    let body ← m.expression
    .ok { a with isExpression := true, body := some body }

/-- An arrow function; its body is a block or an expression. -/
def arrowFunction (e : Extent) (parts : List Part) : Except Fault Node := do
  let a ← parts.foldlM ArrowParts.note .none
  match a.body with
  | some body => .ok (e.node (.arrowFunctionExpression a.params body a.isExpression a.isAsync))
  | none => unexpected "Arrow function without a body." "typeify.ast.func.parse_arrow_function_rule" e

/-- What has been met of a method. The span is that of the function which is its value. -/
structure MethodParts where
  kind : PropertyKind
  isAsync : Bool
  isGenerator : Bool
  key : Option (Node × Bool)
  params : List Node
  body : Option (Block Node)
  span : Option Span

/-- Nothing of a method. -/
def MethodParts.none : MethodParts :=
  { kind := .init, isAsync := false, isGenerator := false, key := .none, params := []
    body := .none, span := .none }

/-- Notes one part of a method. The function that is its value begins at the key. -/
def MethodParts.note (f : MethodParts) (m : Part) : Except Fault MethodParts :=
  match m.rule with
  | .accessorKind => .ok { f with kind := (PropertyKind.ofAccessor? m.extent.string).getD f.kind }
  | .asyncModifier => .ok { f with isAsync := true }
  | .generatorMarker => .ok { f with isGenerator := true }
  | .computedKey | .propertyKey | .privateIdentifier => do
    let key ← propertyKey m.rule m.extent m.parts
    .ok { f with key := some key }
  | .parameterList => do
    let params ← parameterList m.parts
    .ok { f with params }
  | .functionBody => do
    let body ← functionBody m.extent m.parts
    let span := Span.join? (f.key.bind fun (key, _) => key.span?) body.span
    .ok { f with body := some body, span }
  | other =>
    unexpected ("Unexpected method part: " ++ other.name)
      "typeify.ast.func.parse_method_property_rule" m.extent

/-- A method. -/
def method (e : Extent) (parts : List Part) : Except Fault Method := do
  let f ← parts.foldlM MethodParts.note .none
  match f.key, f.body with
  | some (key, computed), some body =>
    let function : Function Node :=
      { id := none, params := f.params, body, isGenerator := f.isGenerator, isAsync := f.isAsync }
    let value := Node.mk (.functionExpression function)
      { location := (f.span.map (·.start)).or e.site.location, span := f.span.or e.site.span }
    .ok { key, computed, kind := f.kind, value }
  | _, _ =>
    unexpected "Method without a key or a body." "typeify.ast.func.parse_method_property_rule" e

/-- A field: its key, whether that is computed, and its value if it has one. -/
def classField (e : Extent) (parts : List Part) : Except Fault (Node × Bool × Option Node) := do
  let (key, parts) ← next e parts
  let (key, computed) ← propertyKey key.rule key.extent key.parts
  let value ← optional Part.expression parts
  .ok (key, computed, value)

/-- A member of a class. -/
def classMember (e : Extent) (parts : List Part) : Except Fault Node := do
  let (first, parts) ← next e parts
  let isStatic : Bool := first.rule = .staticModifier
  let (member, _) ← if isStatic then next e parts else .ok (first, parts)
  match member.rule with
  | .methodProperty =>
    let m ← method member.extent member.parts
    .ok (e.node (.methodDefinition m.key m.value (methodKind m isStatic) m.computed isStatic))
  | _ =>
    let (key, computed, value) ← classField member.extent member.parts
    .ok (e.node (.propertyDefinition key value computed isStatic))

/-- The members of a class. -/
def classBody (e : Extent) (parts : List Part) : Except Fault Node := do
  let members ← parts.mapM fun m => classMember m.extent m.parts
  .ok (e.node (.classBody members))

/-- What a class extends. -/
def classHeritage (e : Extent) (parts : List Part) : Except Fault Node := do
  let (superclass, _) ← next e parts
  superclass.expression

/-- What has been met of a class. -/
structure ClassParts where
  id : Option Node
  superclass : Option Node
  body : Option Node

/-- Nothing of a class. -/
def ClassParts.none : ClassParts :=
  { id := .none, superclass := .none, body := .none }

/-- Notes one part of a class. -/
def ClassParts.note (c : ClassParts) (m : Part) : Except Fault ClassParts :=
  match m.rule with
  | .identifier => .ok { c with id := some (identifier m.extent) }
  | .classHeritage => do
    let superclass ← classHeritage m.extent m.parts
    .ok { c with superclass := some superclass }
  | _ => do
    let body ← classBody m.extent m.parts
    .ok { c with body := some body }

/-- The parts of a class. -/
def classDefinition (e : Extent) (parts : List Part) : Except Fault (Class Node) := do
  let c ← parts.foldlM ClassParts.note .none
  match c.body with
  | some body => .ok { id := c.id, superclass := c.superclass, body }
  | none => unexpected "Class without a body." "typeify.ast.func.parse_class_rule" e

end ScriptTyping.Building
