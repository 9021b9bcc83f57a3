import ScriptTyping.Json
import ScriptTyping.Syntax.Node

/-!
# Nodes as JSON

`Form.members` says which members an object has for each form, in order; `Node.json` puts the label
before them and the position after them. The position is two offsets and, under `loc`, two pairs of
line and column, whose columns count from zero.
-/

namespace ScriptTyping

/-- The value of a member: data, or child nodes in one of several arrangements. -/
inductive Member (α : Type) where
  | data (j : Json)
  | one (a : α)
  | maybe (a : Option α)
  | many (as : List α)
  | slots (as : List (Option α))
  | block (b : Block α)

namespace Member

variable {α : Type}

/-- The child nodes of a member in order. -/
def nodes : Member α → List α
  | data _ => []
  | one a => [a]
  | maybe a => a.toList
  | many as => as
  | slots as => as.filterMap id
  | block b => b.statements

end Member

namespace Location

/-- Line and column of a place; the column counts from zero. -/
def json (l : Location) : Json :=
  .object [("line", .nat l.line), ("column", .nat (l.column - 1))]

end Location

namespace Span

/-- The members that give the position of a node. -/
def members (s : Span) : List (String × Json) :=
  [("start", .nat s.start.offset), ("end", .nat s.stop.offset),
    ("loc", .object [("start", s.start.json), ("end", s.stop.json)])]

/-- The members that give the position of a node; none if it is unknown. -/
def members? (s : Option Span) : List (String × Json) :=
  s.elim [] members

/-- A span alone. -/
def json (s : Span) : Json :=
  .object s.members

end Span

namespace LiteralValue

/-- The members of a literal: its value where JSON has one, and otherwise what it is made of. -/
def members : LiteralValue → List (String × Json)
  | number m => [("value", .magnitude m)]
  | string s => [("value", .string s)]
  | boolean b => [("value", .bool b)]
  | null => [("value", .null)]
  | regex pattern flags =>
    [("value", .object []),
      ("regex", .object [("flags", .string flags), ("pattern", .string pattern)])]
  | bigint digits => [("value", .null), ("bigint", .string digits)]

end LiteralValue

namespace Form

variable {α : Type}

/-- The members of a function. -/
def functionMembers (f : Function α) : List (String × Member α) :=
  [("id", .maybe f.id), ("params", .many f.params), ("body", .block f.body),
    ("generator", .data (.bool f.isGenerator)), ("async", .data (.bool f.isAsync))]

/-- The members of a class. -/
def classMembers (c : Class α) : List (String × Member α) :=
  [("id", .maybe c.id), ("superClass", .maybe c.superclass), ("body", .one c.body)]

/-- The members of a form in order. -/
def members : Form α → List (String × Member α)
  | program body => [("body", .many body), ("sourceType", word "module")]
  | variableDeclaration kind declarations =>
    [("kind", word kind.symbol), ("declarations", .many declarations)]
  | variableDeclarator id init => [("id", .one id), ("init", .maybe init)]
  | functionDeclaration f => functionMembers f
  | classDeclaration c => classMembers c
  | classBody members => [("body", .many members)]
  | methodDefinition key value kind computed isStatic =>
    [("key", .one key), ("value", .one value), ("kind", word kind.symbol),
      ("computed", flag computed), ("static", flag isStatic)]
  | propertyDefinition key value computed isStatic =>
    [("key", .one key), ("value", .maybe value), ("computed", flag computed),
      ("static", flag isStatic)]
  | importDeclaration specifiers source =>
    [("specifiers", .many specifiers), ("source", .one source)]
  | importSpecifier imported bound => [("imported", .one imported), ("local", .one bound)]
  | importDefaultSpecifier bound => [("local", .one bound)]
  | importNamespaceSpecifier bound => [("local", .one bound)]
  | exportNamedDeclaration declaration specifiers source =>
    [("declaration", .maybe declaration), ("specifiers", .many specifiers),
      ("source", .maybe source)]
  | exportSpecifier bound exported => [("local", .one bound), ("exported", .one exported)]
  | exportDefaultDeclaration declaration => [("declaration", .one declaration)]
  | exportAllDeclaration exported source => [("exported", .maybe exported), ("source", .one source)]
  | expressionStatement expression => [("expression", .one expression)]
  | blockStatement body => [("body", .many body)]
  | emptyStatement => []
  | returnStatement argument => [("argument", .maybe argument)]
  | ifStatement test consequent alternate =>
    [("test", .one test), ("consequent", .one consequent), ("alternate", .maybe alternate)]
  | whileStatement test body => [("test", .one test), ("body", .one body)]
  | doWhileStatement body test => [("body", .one body), ("test", .one test)]
  | forStatement init test update body =>
    [("init", .maybe init), ("test", .maybe test), ("update", .maybe update), ("body", .one body)]
  | forInStatement left right body =>
    [("left", .one left), ("right", .one right), ("body", .one body)]
  | forOfStatement left right body isAwait =>
    [("left", .one left), ("right", .one right), ("body", .one body), ("await", flag isAwait)]
  | breakStatement label => [("label", .maybe label)]
  | continueStatement label => [("label", .maybe label)]
  | labeledStatement label body => [("label", .one label), ("body", .one body)]
  | throwStatement argument => [("argument", .one argument)]
  | tryStatement block handler finalizer =>
    [("block", .one block), ("handler", .maybe handler), ("finalizer", .maybe finalizer)]
  | catchClause param body => [("param", .maybe param), ("body", .one body)]
  | switchStatement discriminant cases =>
    [("discriminant", .one discriminant), ("cases", .many cases)]
  | switchCase test consequent => [("test", .maybe test), ("consequent", .many consequent)]
  | identifier name => [("name", word name)]
  | privateIdentifier name => [("name", word name)]
  | literal value raw =>
    (value.members.map fun (k, j) => (k, .data j)) ++ [("raw", word raw)]
  | templateLiteral raw => [("raw", word raw)]
  | thisExpression => []
  | superExpression => []
  | arrayExpression elements => [("elements", .slots elements)]
  | objectExpression properties => [("properties", .many properties)]
  | property key value kind method shorthand computed =>
    [("key", .one key), ("value", .one value), ("kind", word kind.symbol),
      ("method", flag method), ("shorthand", flag shorthand), ("computed", flag computed)]
  | spreadElement argument => [("argument", .one argument)]
  | functionExpression f => functionMembers f
  | arrowFunctionExpression params body expression isAsync =>
    [("params", .many params), ("body", .one body), ("expression", flag expression),
      ("async", flag isAsync)]
  | classExpression c => classMembers c
  | unaryExpression operator argument =>
    [("operator", word operator.symbol), ("prefix", flag true), ("argument", .one argument)]
  | updateExpression operator before argument =>
    [("operator", word operator.symbol), ("prefix", flag before), ("argument", .one argument)]
  | awaitExpression argument => [("argument", .one argument)]
  | yieldExpression argument => [("argument", .maybe argument)]
  | binaryExpression operator left right =>
    [("operator", word operator.symbol), ("left", .one left), ("right", .one right)]
  | logicalExpression operator left right =>
    [("operator", word operator.symbol), ("left", .one left), ("right", .one right)]
  | assignmentExpression operator left right =>
    [("operator", word operator), ("left", .one left), ("right", .one right)]
  | conditionalExpression test consequent alternate =>
    [("test", .one test), ("consequent", .one consequent), ("alternate", .one alternate)]
  | callExpression callee arguments optional =>
    [("callee", .one callee), ("arguments", .many arguments), ("optional", flag optional)]
  | newExpression callee arguments => [("callee", .one callee), ("arguments", .many arguments)]
  | memberExpression target name computed optional =>
    [("object", .one target), ("property", .one name), ("computed", flag computed),
      ("optional", flag optional)]
  | sequenceExpression expressions => [("expressions", .many expressions)]
  | importExpression source options => [("source", .one source), ("options", .maybe options)]
  | metaProperty target name => [("meta", .one target), ("property", .one name)]
  | objectPattern properties => [("properties", .many properties)]
  | arrayPattern elements => [("elements", .slots elements)]
  | restElement argument => [("argument", .one argument)]
  | assignmentPattern left right => [("left", .one left), ("right", .one right)]
where
  word (s : String) : Member α := .data (.string s)
  flag (b : Bool) : Member α := .data (.bool b)

/-- The child nodes of the members are the children of the form. -/
theorem flatMap_nodes_members (f : Form α) :
    (f.members.flatMap fun m => m.2.nodes) = f.children := by
  cases f
  case literal value raw => cases value <;> rfl
  all_goals
    simp [members, children, functionMembers, classMembers, Member.nodes, members.word,
      members.flag]

end Form

namespace Member

/-- A member as JSON, given its child nodes as JSON. -/
def json {α : Type} (m : Member α) (f : (a : α) → a ∈ m.nodes → Json) : Json :=
  match m with
  | data j => j
  | one a => f a (by simp [nodes])
  | maybe none => .null
  | maybe (some a) => f a (by simp [nodes])
  | many as => .array (as.attach.map fun ⟨a, h⟩ => f a h)
  | slots as => .array (as.attach.map fun
      | ⟨none, _⟩ => .null
      | ⟨some a, h⟩ => f a (List.mem_filterMap.2 ⟨some a, h, rfl⟩))
  | block b =>
    .object (("type", .string "BlockStatement") ::
      ("body", .array (b.statements.attach.map fun ⟨a, h⟩ => f a h)) :: Span.members? b.span)

end Member

namespace Node

/-- A child node of a member is smaller than the node. -/
theorem sizeOf_lt_of_mem_members {n c : Node} {k : String} {m : Member Node}
    (hm : (k, m) ∈ n.form.members) (hc : c ∈ m.nodes) : sizeOf c < sizeOf n := by
  apply sizeOf_lt_of_mem_children
  rw [children, ← Form.flatMap_nodes_members]
  exact List.mem_flatMap.2 ⟨(k, m), hm, hc⟩

/-- A node as JSON. -/
def json (n : Node) : Json :=
  .object (("type", .string n.label) ::
    ((n.form.members.attach.map fun ⟨(k, m), _⟩ => (k, m.json fun c _ => json c)) ++
      Span.members? n.span?))
  termination_by sizeOf n
  decreasing_by exact sizeOf_lt_of_mem_members ‹_› ‹_›

end Node

end ScriptTyping
