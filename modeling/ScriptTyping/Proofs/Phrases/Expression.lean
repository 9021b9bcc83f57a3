import ScriptTyping.Number.Literal
import ScriptTyping.Proofs.Phrases.Basic
import ScriptTyping.Syntax.Escape

/-!
# Expressions from their parts

For each rule of expressions, the phrase that its parts make up. A node made of operands covers the
stretch from the first to the last of them; parentheses around an expression leave no node. There is
no phrase for parts that the grammar does not give the rule.
-/

namespace ScriptTyping.Reading

/-- An expression with commas; a single one stands for itself. -/
def sequence (e : Extent) (parts : List Phrase) : Option Phrase := do
  match ← Phrase.nodes? parts with
  | [] => none
  | [n] => some (.node n)
  | ns => some (.node (e.node (.sequenceExpression ns)))

/-- A target, an operator and a value, or a value alone. -/
def assignment (e : Extent) : List Phrase → Option Phrase
  | [.node n] => some (.node n)
  | [.node target, .token operator, .node value] =>
    some (.node (e.node (.assignmentExpression operator target value)))
  | _ => none

/-- A test and two alternatives, or a value alone. -/
def conditional (e : Extent) : List Phrase → Option Phrase
  | [.node n] => some (.node n)
  | [.node test, .node consequent, .node alternate] =>
    some (.node (e.node (.conditionalExpression test consequent alternate)))
  | _ => none

/-- Operands joined from left to right. -/
def chain (left : Node) : List Phrase → Option Node
  | [] => some left
  | .token operator :: .node right :: rest =>
    (combine operator left right).bind fun n => chain n rest
  | _ => none

/-- The operands and operators of one level. -/
def binary : List Phrase → Option Phrase
  | .node left :: rest => (chain left rest).map .node
  | _ => none

/-- An operator and its operand, or an operand alone. -/
def unary (e : Extent) : List Phrase → Option Phrase
  | [.node n] => some (.node n)
  | [.token operator, .node argument] =>
    (unaryForm operator argument).map fun f => .node (e.node f)
  | _ => none

/-- An object and what follows it, from left to right. -/
def accesses (object : Node) : List Phrase → Option Node
  | [] => some object
  | .access a :: rest => accesses (a.apply object) rest
  | .update operator span :: rest =>
    accesses (.mk (.updateExpression operator false object) (object.siteTo (some span))) rest
  | _ => none

/-- An object with accesses, or with a target of `new`. -/
def accessed : List Phrase → Option Phrase
  | .node object :: rest => (accesses object rest).map .node
  | _ => none

/-- An access of the given kind. -/
def access (e : Extent) (kind : AccessKind) : Phrase :=
  .access { kind, optional := isOptional e, span := e.span }

/-- The arguments of a call. -/
def callArguments (e : Extent) (parts : List Phrase) : Option Phrase :=
  (Phrase.nodes? parts).map fun ns => access e (.call ns)

/-- The name of a member. -/
def memberAccess (e : Extent) : List Phrase → Option Phrase
  | [.node name] => some (access e (.member name))
  | _ => none

/-- The expression that a member is looked up by. -/
def computedAccess (e : Extent) : List Phrase → Option Phrase
  | [.node expression] => some (access e (.index expression))
  | _ => none

/-- An operator after its operand. -/
def updateSuffix (e : Extent) : Phrase :=
  .update (suffixOperator e) e.span

/-- A new object, with or without arguments. -/
def newObject (e : Extent) : List Phrase → Option Phrase
  | [.node callee] => some (.node (e.node (.newExpression callee [])))
  | [.node callee, .access { kind := .call arguments, .. }] =>
    some (.node (e.node (.newExpression callee arguments)))
  | _ => none

/-- A list with holes. -/
def arrayLiteral (e : Extent) (parts : List Phrase) : Option Phrase :=
  (Phrase.slots? parts).map fun slots =>
    .node (e.node (.arrayExpression (withoutLastHole slots)))

/-- An item of a list, or a hole. -/
def item : List Phrase → Option Phrase
  | [] => some (.slot none)
  | [.node n] => some (.slot (some n))
  | _ => none

/-- An object with its properties. -/
def objectLiteral (e : Extent) (parts : List Phrase) : Option Phrase :=
  (Phrase.nodes? parts).map fun ns => .node (e.node (.objectExpression ns))

/-- A key with its value, a method, or a name alone. -/
def property (e : Extent) : List Phrase → Option Phrase
  | [.key key computed, .node value] =>
    some (.node (e.node (.property key value .init false false computed)))
  | [.method m] =>
    some (.node (e.node (.property m.key m.value m.kind (m.kind = .init) false m.computed)))
  | [.shorthand n] => some (.node (e.node (.property n n .init false true false)))
  | _ => none

/-- An import as an expression. -/
def importCall (e : Extent) : List Phrase → Option Phrase
  | [.node source] => some (.node (e.node (.importExpression source none)))
  | [.node source, .node options] =>
    some (.node (e.node (.importExpression source (some options))))
  | _ => none

/-- Two names of which the second belongs to the first. -/
def metaProperty (e : Extent) : List Phrase → Option Phrase
  | [.node target, .node name] => some (.node (e.node (.metaProperty target name)))
  | _ => none

/-- An identifier. -/
def identifier (e : Extent) : Phrase :=
  .node (e.node (.identifier e.string))

/-- A private identifier; its name is without the number sign. -/
def privateIdentifier (e : Extent) : Phrase :=
  .node (e.node (.privateIdentifier (String.ofList (privateName e.text))))

/-- A literal. -/
def literal (e : Extent) (value : LiteralValue) : Phrase :=
  .node (e.node (.literal value e.string))

/-- The text between the first and the last byte of a text; none when there are not two, or when
one of them is no character. -/
def inner? (cs : List Char) : Option (List Char) :=
  Text.slice? cs 1 (Text.byteLength cs - 1)

/-- A regular expression: the last slash ends its pattern, and flags follow. -/
def regexValue? (cs : List Char) : Option LiteralValue :=
  (Text.slice? cs 1 (max (lastSlash cs) 1)).bind fun pattern =>
    (Text.slice? cs (lastSlash cs + 1) (Text.byteLength cs)).map fun flags =>
      .regex (String.ofList pattern) (String.ofList flags)

/-- A template, given what stands between its backticks. -/
def templateLiteral (e : Extent) (body : List Char) : Phrase :=
  .node (e.node (.templateLiteral (String.ofList body)))

end ScriptTyping.Reading
