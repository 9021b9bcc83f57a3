import ScriptTyping.Building.Function

/-!
# Expressions

The builders of expressions. A node made of operands covers the stretch from the first to the last of
them; parentheses around an expression leave no node.
-/

namespace ScriptTyping.Building
open Reading

/-- An expression with commas; a single one stands for itself. -/
def sequence (e : Extent) (parts : List Part) : Except Fault Node := do
  match ← parts.mapM Part.expression with
  | [n] => .ok n
  | [] => unexpected "Empty expression." "typeify.expr.parse_sequence_rule" e
  | ns => .ok (e.node (.sequenceExpression ns))

/-- A target, an operator and a value, or a value alone. -/
def assignment (e : Extent) (parts : List Part) : Except Fault Node := do
  let (left, parts) ← next e parts
  let left ← left.expression
  match parts with
  | [] => .ok left
  | operator :: parts =>
    let (right, _) ← next e parts
    let right ← right.expression
    .ok (e.node (.assignmentExpression operator.extent.string left right))

/-- A test and two alternatives, or a value alone. -/
def conditional (e : Extent) (parts : List Part) : Except Fault Node := do
  let (test, parts) ← next e parts
  let test ← test.expression
  match parts with
  | [] => .ok test
  | consequent :: parts =>
    let (alternate, _) ← next e parts
    let consequent ← consequent.expression
    let alternate ← alternate.expression
    .ok (e.node (.conditionalExpression test consequent alternate))

/-- Operators and operands, joined to an operand from left to right. -/
def chain (left : Node) : List Part → Except Fault Node
  | [] => .ok left
  | [operator] =>
    unexpected ("Missing right-hand operand for operator '" ++ operator.extent.string ++ "'.")
      "typeify.expr.parse_binary_chain_rule" operator.extent
  | operator :: right :: parts => do
    let right ← right.expression
    match combine operator.extent.string left right with
    | some n => chain n parts
    | none =>
      unexpected ("Invalid binary operator '" ++ operator.extent.string ++ "'.")
        "typeify.expr.parse_binary_chain_rule" operator.extent

/-- The operands and operators of one level. -/
def binary (e : Extent) (parts : List Part) : Except Fault Node := do
  let (left, parts) ← next e parts
  let left ← left.expression
  chain left parts

/-- An operator and its operand, or an operand alone. -/
def unary (e : Extent) (parts : List Part) : Except Fault Node := do
  let (first, parts) ← next e parts
  match first.rule with
  | .unaryOperator =>
    let (argument, _) ← next e parts
    let argument ← argument.expression
    match unaryForm first.extent.string argument with
    | some form => .ok (e.node form)
    | none =>
      unexpected ("Invalid unary operator '" ++ first.extent.string ++ "'.")
        "typeify.expr.parse_unary_expression_rule" e
  | _ => first.expression

/-- The arguments of a call. -/
def callArguments (parts : List Part) : Except Fault (List Node) :=
  parts.mapM Part.expression

/-- What a match says of the access to an object. -/
def access (m : Part) : Except Fault Access :=
  match m.rule with
  | .callArguments => do
    let arguments ← callArguments m.parts
    .ok (whole (.call arguments))
  | .memberAccess => do
    let (name, _) ← next m.extent m.parts
    let name ← name.expression
    .ok (whole (.member name))
  | .computedAccess => do
    let (index, _) ← next m.extent m.parts
    let index ← index.expression
    .ok (whole (.index index))
  | other =>
    unexpected ("Unsupported member access: " ++ other.name) "typeify.expr.apply_access" m.extent
where
  /-- An access of the given kind that covers the match. -/
  whole (kind : AccessKind) : Access :=
    { kind, optional := isOptional m.extent, span := m.extent.span }

/-- An object with an access to it. -/
def applyAccess (object : Node) (m : Part) : Except Fault Node := do
  let a ← access m
  .ok (a.apply object)

/-- An object with what follows it: an access, or an operator. -/
def applySuffix (e : Extent) (object : Node) (m : Part) : Except Fault Node :=
  match m.rule with
  | .postfixOperation => do
    let (m, _) ← next e m.parts
    applyAccess object m
  | .updateSuffix =>
    .ok (.mk (.updateExpression (suffixOperator m.extent) false object)
      (object.siteTo (some m.extent.span)))
  | other =>
    unexpected ("Unsupported postfix operator: " ++ other.name)
      "typeify.expr.parse_postfix_expression_rule" m.extent

/-- An object and what follows it, from left to right. -/
def suffixed (e : Extent) (parts : List Part) : Except Fault Node := do
  let (head, parts) ← next e parts
  let object ← head.expression
  parts.foldlM (applySuffix e) object

/-- The object of `new`, with accesses to it. -/
def newTarget (e : Extent) (parts : List Part) : Except Fault Node := do
  let (head, parts) ← next e parts
  let object ← head.expression
  parts.foldlM applyAccess object

/-- A new object, with or without arguments. -/
def newObject (e : Extent) (parts : List Part) : Except Fault Node := do
  let (callee, parts) ← next e parts
  let callee ← newTarget callee.extent callee.parts
  let arguments ← match parts with
    | [] => .ok []
    | m :: _ => callArguments m.parts
  .ok (e.node (.newExpression callee arguments))

/-- A list with holes. -/
def arrayLiteral (e : Extent) (parts : List Part) : Except Fault Node := do
  let elements ← parts.mapM fun m => optional Part.expression m.parts
  .ok (e.node (.arrayExpression (withoutLastHole elements)))

/-- A property of an object: a method, a name alone, or a key with its value. -/
def property (e : Extent) (parts : List Part) : Except Fault Node := do
  let (first, parts) ← next e parts
  match first.rule with
  | .methodProperty =>
    let m ← method first.extent first.parts
    .ok (e.node (.property m.key m.value m.kind (m.kind = .init) false m.computed))
  | .shorthandProperty =>
    let (name, _) ← next e first.parts
    let key := identifier name.extent
    .ok (e.node (.property key key .init false true false))
  | rule =>
    let (key, computed) ← propertyKey rule first.extent first.parts
    let (value, _) ← next e parts
    let value ← value.expression
    .ok (e.node (.property key value .init false false computed))

/-- What stands between the braces of an object: a property, or a spread. -/
def objectMember (m : Part) : Except Fault Node :=
  match m.rule with
  | .property => property m.extent m.parts
  | _ => m.expression

/-- An object with its properties. -/
def objectLiteral (e : Extent) (parts : List Part) : Except Fault Node := do
  let properties ← parts.mapM objectMember
  .ok (e.node (.objectExpression properties))

/-- An import as an expression. -/
def importCall (e : Extent) (parts : List Part) : Except Fault Node := do
  let (source, parts) ← next e parts
  let source ← source.expression
  let options ← optional Part.expression parts
  .ok (e.node (.importExpression source options))

/-- Two names of which the second belongs to the first. -/
def metaProperty (e : Extent) (parts : List Part) : Except Fault Node := do
  let (object, parts) ← next e parts
  let (name, _) ← next e parts
  .ok (e.node (.metaProperty (identifier object.extent) (identifier name.extent)))

/-- An expression of any level. -/
def expression (r : Rule) (e : Extent) (parts : List Part) : Except Fault Node :=
  match r with
  | .expression => sequence e parts
  | .assignmentExpression => assignment e parts
  | .arrowFunction => arrowFunction e parts
  | .conditionalExpression => conditional e parts
  | .binaryExpression _ => binary e parts
  | .unaryExpression => unary e parts
  | .postfixExpression => suffixed e parts
  | .newExpression => newObject e parts
  | .parenthesizedExpression => do
    let (inner, _) ← next e parts
    inner.expression
  | .spreadElement => do
    let (argument, _) ← next e parts
    let argument ← argument.expression
    .ok (e.node (.spreadElement argument))
  | .functionExpression => do
    let f ← function e parts
    .ok (e.node (.functionExpression f))
  | .classExpression => do
    let c ← classDefinition e parts
    .ok (e.node (.classExpression c))
  | .arrayLiteral => arrayLiteral e parts
  | .objectLiteral => objectLiteral e parts
  | .thisExpression => .ok (e.node .thisExpression)
  | .superExpression => .ok (e.node .superExpression)
  | .identifier | .propertyIdentifier => .ok (identifier e)
  | .privateIdentifier => .ok (privateIdentifier e)
  | .importCall => importCall e parts
  | .metaProperty => metaProperty e parts
  | .number | .bigint | .string | .boolean | .null | .regex | .templateLiteral => literal r e
  | other =>
    unexpected ("Unexpected expression type: " ++ other.name) "typeify.expr.parse_expression_rule" e

end ScriptTyping.Building
