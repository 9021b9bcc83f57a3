import ScriptTyping.Proofs.Phrases.Basic

/-!
# Bindings, functions and classes from their parts

For each rule of binding patterns, parameters, functions and classes, the phrase that its parts make
up.
-/

namespace ScriptTyping.Reading

/-- A binding with a default, or alone. -/
def bindingElement (e : Extent) : List Phrase → Option Phrase
  | [.node target] => some (.node target)
  | [.node target, .node value] => some (.node (e.node (.assignmentPattern target value)))
  | _ => none

/-- A binding for all that is left. -/
def restElement (e : Extent) : List Phrase → Option Phrase
  | [.node target] => some (.node (e.node (.restElement target)))
  | _ => none

/-- A property of a pattern: a binding for all that is left, a name alone, or a key and a
binding. Of these only the binding for the rest is no property node. -/
def patternProperty (e : Extent) : List Phrase → Option Phrase
  | [.key name computed, .node value] =>
    some (.node (e.node (.property name value .init false false computed)))
  | [.node binding] =>
    match binding.form with
    | .restElement _ => some (.node binding)
    | _ => some (.node (e.node (.property (shorthandKey binding) binding .init false true false)))
  | _ => none

/-- An object pattern. -/
def objectPattern (e : Extent) (parts : List Phrase) : Option Phrase :=
  (Phrase.nodes? parts).map fun ns => .node (e.node (.objectPattern ns))

/-- An array pattern. -/
def arrayPattern (e : Extent) (parts : List Phrase) : Option Phrase :=
  (Phrase.slots? parts).map fun slots =>
    .node (e.node (.arrayPattern (withoutLastHole slots)))

/-- Several nodes. -/
def list (parts : List Phrase) : Option Phrase :=
  (Phrase.nodes? parts).map .nodes

/-- The statements of a function. -/
def functionBody (e : Extent) (parts : List Phrase) : Option Phrase :=
  (Phrase.nodes? parts).map fun ns => .block { statements := ns, span := some e.span }

/-- The parts of a function with a keyword. -/
def function (parts : List Phrase) : Option (Function Node) :=
  let (isAsync, parts) := Phrase.takeToken "async" parts
  let (isGenerator, parts) := Phrase.takeToken "*" parts
  let (id, parts) := Phrase.takeNode parts
  let (params, parts) := Phrase.takeNodes parts
  match parts with
  | [.block body] => some { id, params, body, isGenerator, isAsync }
  | _ => none

/-- The parameters of an arrow function: a name, a list, or none. -/
def arrowParameters : List Phrase → Option Phrase
  | [] => some (.nodes [])
  | [.node n] => some (.nodes [n])
  | [.nodes ns] => some (.nodes ns)
  | _ => none

/-- An arrow function; its body is a block or an expression. -/
def arrowFunction (e : Extent) (parts : List Phrase) : Option Phrase :=
  let (isAsync, parts) := Phrase.takeToken "async" parts
  match parts with
  | [.nodes params, .block b] =>
    some (.node (e.node (.arrowFunctionExpression params (blockNode b) false isAsync)))
  | [.nodes params, .node body] =>
    some (.node (e.node (.arrowFunctionExpression params body true isAsync)))
  | _ => none

/-- A key, which may be a private name. -/
def memberKey : Phrase → Option (Node × Bool)
  | .key n computed => some (n, computed)
  | .node n => some (n, false)
  | _ => none

/-- What comes before the key of a method: `get`, `set`, or markers. -/
def accessorKind : List Phrase → PropertyKind × List Phrase
  | .token t :: parts =>
    match PropertyKind.ofAccessor? t with
    | some kind => (kind, parts)
    | none => (.init, .token t :: parts)
  | parts => (.init, parts)

/-- Where the function stands that is the value of a method: from its key to its body, and if this
is unknown at the method itself. -/
def methodSite (e : Extent) (key : Node) (body : Block Node) : Site :=
  let span := Span.join? key.span? body.span
  { location := (span.map (·.start)).or e.site.location, span := span.or e.site.span }

/-- A method. The function that is its value begins at the key. -/
def method (e : Extent) (parts : List Phrase) : Option Phrase := do
  let (kind, parts) := accessorKind parts
  let (isAsync, parts) := Phrase.takeToken "async" parts
  let (isGenerator, parts) := Phrase.takeToken "*" parts
  match parts with
  | [] => none
  | first :: parts =>
    let (key, computed) ← memberKey first
    let (params, parts) := Phrase.takeNodes parts
    match parts with
    | [.block body] =>
      let f : Function Node := { id := none, params, body, isGenerator, isAsync }
      let value := Node.mk (.functionExpression f) (methodSite e key body)
      some (.method { key, computed, kind, value })
    | _ => none

/-- A field: its key, and its value if it has one. It stands for a property definition that does
not know yet whether it is static. -/
def classField : List Phrase → Option Phrase
  | [first] => do
    let (key, computed) ← memberKey first
    some (.field key computed none)
  | [first, .node value] => do
    let (key, computed) ← memberKey first
    some (.field key computed (some value))
  | _ => none

/-- A member of a class. -/
def classMember (e : Extent) (parts : List Phrase) : Option Phrase :=
  let (isStatic, parts) := Phrase.takeToken "static" parts
  match parts with
  | [.method m] =>
    some (.node (e.node
      (.methodDefinition m.key m.value (methodKind m isStatic) m.computed isStatic)))
  | [.field key computed value] =>
    some (.node (e.node (.propertyDefinition key value computed isStatic)))
  | _ => none

/-- The members of a class. -/
def classBody (e : Extent) (parts : List Phrase) : Option Phrase :=
  (Phrase.nodes? parts).map fun ns => .node (e.node (.classBody ns))

/-- What a class extends. -/
def classHeritage : List Phrase → Option Phrase
  | [.node n] => some (.heritage n)
  | _ => none

/-- The parts of a class. -/
def classDefinition : List Phrase → Option (Class Node)
  | [.node body] => some { id := none, superclass := none, body }
  | [.node id, .node body] => some { id := some id, superclass := none, body }
  | [.heritage superclass, .node body] => some { id := none, superclass := some superclass, body }
  | [.node id, .heritage superclass, .node body] =>
    some { id := some id, superclass := some superclass, body }
  | _ => none

end ScriptTyping.Reading
