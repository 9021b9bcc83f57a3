import ScriptTyping.Location
import ScriptTyping.Number.Magnitude
import ScriptTyping.Syntax.Operator

/-!
# Forms of nodes

A `Form` is what a node of the syntax tree is, over a type of child nodes. `Form.label` names it
and `Form.children` lists its child nodes in the order in which a walk of the tree meets them.
-/

namespace ScriptTyping

/-- The value of a literal. -/
inductive LiteralValue where
  | number (m : Magnitude)
  | string (s : String)
  | boolean (b : Bool)
  | null
  | regex (pattern flags : String)
  | bigint (digits : String)
  deriving DecidableEq, Repr

/-- The statements between the braces of a function, and the span of the braces if it is known. -/
structure Block (α : Type) where
  statements : List α
  span : Option Span

/-- The parts of a function with a keyword or of a method. -/
structure Function (α : Type) where
  id : Option α
  params : List α
  body : Block α
  isGenerator : Bool
  isAsync : Bool

/-- The parts of a class. -/
structure Class (α : Type) where
  id : Option α
  superclass : Option α
  body : α

/-- The forms of nodes over a type of child nodes. -/
inductive Form (α : Type) where
  | program (body : List α)
  | variableDeclaration (kind : DeclarationKind) (declarations : List α)
  | variableDeclarator (id : α) (init : Option α)
  | functionDeclaration (function : Function α)
  | classDeclaration (definition : Class α)
  | classBody (members : List α)
  | methodDefinition (key value : α) (kind : MethodKind) (computed isStatic : Bool)
  | propertyDefinition (key : α) (value : Option α) (computed isStatic : Bool)
  | importDeclaration (specifiers : List α) (source : α)
  | importSpecifier (imported bound : α)
  | importDefaultSpecifier (bound : α)
  | importNamespaceSpecifier (bound : α)
  | exportNamedDeclaration (declaration : Option α) (specifiers : List α) (source : Option α)
  | exportSpecifier (bound exported : α)
  | exportDefaultDeclaration (declaration : α)
  | exportAllDeclaration (exported : Option α) (source : α)
  | expressionStatement (expression : α)
  | blockStatement (body : List α)
  | emptyStatement
  | returnStatement (argument : Option α)
  | ifStatement (test consequent : α) (alternate : Option α)
  | whileStatement (test body : α)
  | doWhileStatement (body test : α)
  | forStatement (init test update : Option α) (body : α)
  | forInStatement (left right body : α)
  | forOfStatement (left right body : α) (isAwait : Bool)
  | breakStatement (label : Option α)
  | continueStatement (label : Option α)
  | labeledStatement (label body : α)
  | throwStatement (argument : α)
  | tryStatement (block : α) (handler finalizer : Option α)
  | catchClause (param : Option α) (body : α)
  | switchStatement (discriminant : α) (cases : List α)
  | switchCase (test : Option α) (consequent : List α)
  | identifier (name : String)
  | privateIdentifier (name : String)
  | literal (value : LiteralValue) (raw : String)
  | templateLiteral (raw : String)
  | thisExpression
  | superExpression
  | arrayExpression (elements : List (Option α))
  | objectExpression (properties : List α)
  | property (key value : α) (kind : PropertyKind) (method shorthand computed : Bool)
  | spreadElement (argument : α)
  | functionExpression (function : Function α)
  | arrowFunctionExpression (params : List α) (body : α) (expression isAsync : Bool)
  | classExpression (definition : Class α)
  | unaryExpression (operator : UnaryOperator) (argument : α)
  | updateExpression (operator : UpdateOperator) (before : Bool) (argument : α)
  | awaitExpression (argument : α)
  | yieldExpression (argument : Option α)
  | binaryExpression (operator : BinaryOperator) (left right : α)
  | logicalExpression (operator : LogicalOperator) (left right : α)
  | assignmentExpression (operator : String) (left right : α)
  | conditionalExpression (test consequent alternate : α)
  | callExpression (callee : α) (arguments : List α) (optional : Bool)
  | newExpression (callee : α) (arguments : List α)
  | memberExpression (target name : α) (computed optional : Bool)
  | sequenceExpression (expressions : List α)
  | importExpression (source : α) (options : Option α)
  | metaProperty (target name : α)
  | objectPattern (properties : List α)
  | arrayPattern (elements : List (Option α))
  | restElement (argument : α)
  | assignmentPattern (left right : α)

namespace Form

variable {α : Type}

/-- The name of a form. -/
def label : Form α → String
  | program .. => "Program"
  | variableDeclaration .. => "VariableDeclaration"
  | variableDeclarator .. => "VariableDeclarator"
  | functionDeclaration .. => "FunctionDeclaration"
  | classDeclaration .. => "ClassDeclaration"
  | classBody .. => "ClassBody"
  | methodDefinition .. => "MethodDefinition"
  | propertyDefinition .. => "PropertyDefinition"
  | importDeclaration .. => "ImportDeclaration"
  | importSpecifier .. => "ImportSpecifier"
  | importDefaultSpecifier .. => "ImportDefaultSpecifier"
  | importNamespaceSpecifier .. => "ImportNamespaceSpecifier"
  | exportNamedDeclaration .. => "ExportNamedDeclaration"
  | exportSpecifier .. => "ExportSpecifier"
  | exportDefaultDeclaration .. => "ExportDefaultDeclaration"
  | exportAllDeclaration .. => "ExportAllDeclaration"
  | expressionStatement .. => "ExpressionStatement"
  | blockStatement .. => "BlockStatement"
  | emptyStatement => "EmptyStatement"
  | returnStatement .. => "ReturnStatement"
  | ifStatement .. => "IfStatement"
  | whileStatement .. => "WhileStatement"
  | doWhileStatement .. => "DoWhileStatement"
  | forStatement .. => "ForStatement"
  | forInStatement .. => "ForInStatement"
  | forOfStatement .. => "ForOfStatement"
  | breakStatement .. => "BreakStatement"
  | continueStatement .. => "ContinueStatement"
  | labeledStatement .. => "LabeledStatement"
  | throwStatement .. => "ThrowStatement"
  | tryStatement .. => "TryStatement"
  | catchClause .. => "CatchClause"
  | switchStatement .. => "SwitchStatement"
  | switchCase .. => "SwitchCase"
  | identifier .. => "Identifier"
  | privateIdentifier .. => "PrivateIdentifier"
  | literal .. => "Literal"
  | templateLiteral .. => "TemplateLiteral"
  | thisExpression => "ThisExpression"
  | superExpression => "Super"
  | arrayExpression .. => "ArrayExpression"
  | objectExpression .. => "ObjectExpression"
  | property .. => "Property"
  | spreadElement .. => "SpreadElement"
  | functionExpression .. => "FunctionExpression"
  | arrowFunctionExpression .. => "ArrowFunctionExpression"
  | classExpression .. => "ClassExpression"
  | unaryExpression .. => "UnaryExpression"
  | updateExpression .. => "UpdateExpression"
  | awaitExpression .. => "AwaitExpression"
  | yieldExpression .. => "YieldExpression"
  | binaryExpression .. => "BinaryExpression"
  | logicalExpression .. => "LogicalExpression"
  | assignmentExpression .. => "AssignmentExpression"
  | conditionalExpression .. => "ConditionalExpression"
  | callExpression .. => "CallExpression"
  | newExpression .. => "NewExpression"
  | memberExpression .. => "MemberExpression"
  | sequenceExpression .. => "SequenceExpression"
  | importExpression .. => "ImportExpression"
  | metaProperty .. => "MetaProperty"
  | objectPattern .. => "ObjectPattern"
  | arrayPattern .. => "ArrayPattern"
  | restElement .. => "RestElement"
  | assignmentPattern .. => "AssignmentPattern"

/-- The child nodes in order. A missing part or a hole is no child. -/
def children : Form α → List α
  | program body => body
  | variableDeclaration _ declarations => declarations
  | variableDeclarator id init => id :: init.toList
  | functionDeclaration f => f.id.toList ++ f.params ++ f.body.statements
  | classDeclaration c => c.id.toList ++ c.superclass.toList ++ [c.body]
  | classBody members => members
  | methodDefinition key value .. => [key, value]
  | propertyDefinition key value .. => key :: value.toList
  | importDeclaration specifiers source => specifiers ++ [source]
  | importSpecifier imported bound => [imported, bound]
  | importDefaultSpecifier bound => [bound]
  | importNamespaceSpecifier bound => [bound]
  | exportNamedDeclaration declaration specifiers source =>
    declaration.toList ++ specifiers ++ source.toList
  | exportSpecifier bound exported => [bound, exported]
  | exportDefaultDeclaration declaration => [declaration]
  | exportAllDeclaration exported source => exported.toList ++ [source]
  | expressionStatement expression => [expression]
  | blockStatement body => body
  | emptyStatement => []
  | returnStatement argument => argument.toList
  | ifStatement test consequent alternate => test :: consequent :: alternate.toList
  | whileStatement test body => [test, body]
  | doWhileStatement body test => [body, test]
  | forStatement init test update body =>
    init.toList ++ test.toList ++ update.toList ++ [body]
  | forInStatement left right body => [left, right, body]
  | forOfStatement left right body _ => [left, right, body]
  | breakStatement label => label.toList
  | continueStatement label => label.toList
  | labeledStatement label body => [label, body]
  | throwStatement argument => [argument]
  | tryStatement block handler finalizer => block :: (handler.toList ++ finalizer.toList)
  | catchClause param body => param.toList ++ [body]
  | switchStatement discriminant cases => discriminant :: cases
  | switchCase test consequent => test.toList ++ consequent
  | identifier _ => []
  | privateIdentifier _ => []
  | literal .. => []
  | templateLiteral _ => []
  | thisExpression => []
  | superExpression => []
  | arrayExpression elements => elements.filterMap id
  | objectExpression properties => properties
  | property key value .. => [key, value]
  | spreadElement argument => [argument]
  | functionExpression f => f.id.toList ++ f.params ++ f.body.statements
  | arrowFunctionExpression params body .. => params ++ [body]
  | classExpression c => c.id.toList ++ c.superclass.toList ++ [c.body]
  | unaryExpression _ argument => [argument]
  | updateExpression _ _ argument => [argument]
  | awaitExpression argument => [argument]
  | yieldExpression argument => argument.toList
  | binaryExpression _ left right => [left, right]
  | logicalExpression _ left right => [left, right]
  | assignmentExpression _ left right => [left, right]
  | conditionalExpression test consequent alternate => [test, consequent, alternate]
  | callExpression callee arguments _ => callee :: arguments
  | newExpression callee arguments => callee :: arguments
  | memberExpression target name .. => [target, name]
  | sequenceExpression expressions => expressions
  | importExpression source options => source :: options.toList
  | metaProperty target name => [target, name]
  | objectPattern properties => properties
  | arrayPattern elements => elements.filterMap id
  | restElement argument => [argument]
  | assignmentPattern left right => [left, right]

/-- A child is smaller than its node. -/
theorem sizeOf_lt_of_mem_children [SizeOf α] {f : Form α} {a : α} (h : a ∈ f.children) :
    sizeOf a < sizeOf f := by
  have many {as : List α} (h : a ∈ as) : sizeOf a < sizeOf as := List.sizeOf_lt_of_mem h
  have one {o : Option α} (h : a ∈ o.toList) : sizeOf a < sizeOf o := by
    cases o with
    | none => simp at h
    | some b => simp at h; subst h; simp
  have slots {os : List (Option α)} (h : a ∈ os.filterMap id) : sizeOf a < sizeOf os := by
    obtain ⟨o, ho, e⟩ := List.mem_filterMap.1 h
    have outer := List.sizeOf_lt_of_mem ho
    simp only [id_eq] at e
    subst e
    simp only [Option.some.sizeOf_spec] at outer
    omega
  have function {g : Function α} (h : a ∈ g.id.toList ++ g.params ++ g.body.statements) :
      sizeOf a < sizeOf g := by
    obtain ⟨id, params, ⟨statements, span⟩, _, _⟩ := g
    simp only [List.mem_append] at h
    simp only [Function.mk.sizeOf_spec, Block.mk.sizeOf_spec]
    rcases h with (h | h) | h
    · have := one h; omega
    · have := many h; omega
    · have := many h; omega
  have definition {c : Class α} (h : a ∈ c.id.toList ++ c.superclass.toList ++ [c.body]) :
      sizeOf a < sizeOf c := by
    obtain ⟨id, superclass, body⟩ := c
    simp only [List.mem_append, List.mem_singleton] at h
    simp only [Class.mk.sizeOf_spec]
    rcases h with (h | h) | rfl
    · have := one h; omega
    · have := one h; omega
    · omega
  cases f
  all_goals simp only [children] at h
  case functionDeclaration g => have := function h; simp; omega
  case functionExpression g => have := function h; simp; omega
  case classDeclaration c => have := definition h; simp; omega
  case classExpression c => have := definition h; simp; omega
  case arrayExpression elements => have := slots h; simp; omega
  case arrayPattern elements => have := slots h; simp; omega
  all_goals simp
  all_goals grind

end Form

end ScriptTyping
