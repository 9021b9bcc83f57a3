import ScriptTyping.Reading.Extent

/-!
# Pieces of nodes

What builders make on the way to a node, and how the pieces are put together: accesses, methods,
operators with their operands, lists with holes, and the parts of literals.
-/

namespace ScriptTyping

/-- What follows an expression that is called or looked into. -/
inductive AccessKind where
  | call (arguments : List Node)
  | member (name : Node)
  | index (expression : Node)

/-- An access, whether it is left out when its object is missing, and where it stands. -/
structure Access where
  kind : AccessKind
  optional : Bool
  span : Span

/-- The access to an object, from the start of the object to the end of the access. -/
def Access.apply (a : Access) (object : Node) : Node :=
  let form := match a.kind with
    | .call arguments => Form.callExpression object arguments a.optional
    | .member name => Form.memberExpression object name false a.optional
    | .index expression => Form.memberExpression object expression true a.optional
  .mk form (object.siteTo (some a.span))

/-- A method: its key, and the function that is its value. -/
structure Method where
  key : Node
  computed : Bool
  kind : PropertyKind
  value : Node

namespace Reading

/-- Two operands joined by an operator. -/
def combine (operator : String) (left right : Node) : Option Node :=
  let site := left.siteTo right.span?
  match LogicalOperator.ofSymbol? operator with
  | some op => some (.mk (.logicalExpression op left right) site)
  | none => (BinaryOperator.ofSymbol? operator).map fun op =>
      .mk (.binaryExpression op left right) site

/-- The form of an operator with the operand after it. -/
def unaryForm (operator : String) (argument : Node) : Option (Form Node) :=
  if operator = UpdateOperator.increment.symbol then
    some (.updateExpression .increment true argument)
  else if operator = UpdateOperator.decrement.symbol then
    some (.updateExpression .decrement true argument)
  else if operator = "await" then some (.awaitExpression argument)
  else if operator = "yield" then some (.yieldExpression (some argument))
  else (UnaryOperator.ofSymbol? operator).map fun op => .unaryExpression op argument

/-- The operator that a match after an operand is. -/
def suffixOperator (e : Extent) : UpdateOperator :=
  if e.string = UpdateOperator.increment.symbol then .increment else .decrement

/-- Whether an access is left out when its object is missing. -/
def isOptional (e : Extent) : Bool :=
  "?.".toList.isPrefixOf e.text

/-- A list without the hole that a comma at its end would leave. -/
def withoutLastHole (slots : List (Option Node)) : List (Option Node) :=
  match slots.getLast? with
  | some none => if 1 < slots.length then slots.dropLast else slots
  | _ => slots

/-- The name that a shorthand binding takes its value from: the binding without its default. -/
def shorthandKey (binding : Node) : Node :=
  match binding.form with
  | .assignmentPattern left _ => left
  | _ => binding

/-- The body of an arrow function as a statement. -/
def blockNode (b : Block Node) : Node :=
  .mk (.blockStatement b.statements) { location := b.span.map (·.start), span := b.span }

/-- The kind of a method in a class: a plain one whose key is the name `constructor` is the
constructor, unless it is static or its key is computed. -/
def methodKind (m : Method) (isStatic : Bool) : MethodKind :=
  match m.kind with
  | .get => .get
  | .set => .set
  | .init =>
    if !m.computed && !isStatic && m.key.name? == some "constructor" then .constructor else .method

/-- A private name without the number sign before it. -/
def privateName : List Char → List Char
  | '#' :: cs => cs
  | cs => cs

/-- The offset of the last slash, or zero when there is none. -/
def lastSlash (cs : List Char) : Nat :=
  Text.byteLength (cs.take (cs.length - (cs.reverse.takeWhile (· != '/')).length - 1))

/-- An integer with the mark of arbitrary precision. -/
def bigintValue (cs : List Char) : LiteralValue :=
  .bigint (String.ofList (cs.reverse.dropWhile (· == 'n')).reverse)

end Reading

end ScriptTyping
