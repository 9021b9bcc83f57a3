import Mathlib.Tactic.Lemma
import ScriptTyping.Proofs.Syntax.Alike
import ScriptTyping.Proofs.Phrases.Basic

/-!
# Trees at other places

`Node.relocate g` is a node with each place in it changed by `g`, the places of the braces of functions
among them. It is alike to the node it is made from (`Node.alike_relocate`), so it has the same kind,
and a walk meets the same nodes in the same order (`Node.preorder_relocate`). `Phrase.relocate` does the
same with what the matches of rules stand for.
-/

namespace ScriptTyping

/-- A span with both its places changed. -/
def Span.relocate (g : Location → Location) (s : Span) : Span :=
  { start := g s.start, stop := g s.stop }

@[simp] lemma Span.relocate_start (g : Location → Location) (s : Span) :
    (s.relocate g).start = g s.start := rfl

@[simp] lemma Span.relocate_stop (g : Location → Location) (s : Span) :
    (s.relocate g).stop = g s.stop := rfl

@[simp] lemma Span.join?_relocate (g : Location → Location) (s t : Option Span) :
    join? (s.map (relocate g)) (t.map (relocate g)) = (join? s t).map (relocate g) := by
  cases s <;> cases t <;> rfl

/-- A site with all its places changed. -/
def Site.relocate (g : Location → Location) (s : Site) : Site :=
  { location := s.location.map g, span := s.span.map (Span.relocate g) }

section Definitions

variable (g : Location → Location)

mutual

/-- A node with all places changed. -/
def Node.relocate : Node → Node
  | .mk f s => .mk (Form.relocate f) (s.relocate g)

/-- A form with all places changed. -/
def Form.relocate : Form Node → Form Node
  | .program body => .program (relocateAll body)
  | .variableDeclaration kind declarations =>
    .variableDeclaration kind (relocateAll declarations)
  | .variableDeclarator id init => .variableDeclarator (Node.relocate id) (relocateMaybe init)
  | .functionDeclaration f => .functionDeclaration (relocateFunction f)
  | .classDeclaration c => .classDeclaration (relocateClass c)
  | .classBody members => .classBody (relocateAll members)
  | .methodDefinition key value kind computed isStatic =>
    .methodDefinition (Node.relocate key) (Node.relocate value) kind computed isStatic
  | .propertyDefinition key value computed isStatic =>
    .propertyDefinition (Node.relocate key) (relocateMaybe value) computed isStatic
  | .importDeclaration specifiers source =>
    .importDeclaration (relocateAll specifiers) (Node.relocate source)
  | .importSpecifier imported bound =>
    .importSpecifier (Node.relocate imported) (Node.relocate bound)
  | .importDefaultSpecifier bound => .importDefaultSpecifier (Node.relocate bound)
  | .importNamespaceSpecifier bound => .importNamespaceSpecifier (Node.relocate bound)
  | .exportNamedDeclaration declaration specifiers source =>
    .exportNamedDeclaration (relocateMaybe declaration) (relocateAll specifiers)
      (relocateMaybe source)
  | .exportSpecifier bound exported =>
    .exportSpecifier (Node.relocate bound) (Node.relocate exported)
  | .exportDefaultDeclaration declaration => .exportDefaultDeclaration (Node.relocate declaration)
  | .exportAllDeclaration exported source =>
    .exportAllDeclaration (relocateMaybe exported) (Node.relocate source)
  | .expressionStatement expression => .expressionStatement (Node.relocate expression)
  | .blockStatement body => .blockStatement (relocateAll body)
  | .emptyStatement => .emptyStatement
  | .returnStatement argument => .returnStatement (relocateMaybe argument)
  | .ifStatement test consequent alternate =>
    .ifStatement (Node.relocate test) (Node.relocate consequent) (relocateMaybe alternate)
  | .whileStatement test body => .whileStatement (Node.relocate test) (Node.relocate body)
  | .doWhileStatement body test => .doWhileStatement (Node.relocate body) (Node.relocate test)
  | .forStatement init test update body =>
    .forStatement (relocateMaybe init) (relocateMaybe test) (relocateMaybe update)
      (Node.relocate body)
  | .forInStatement left right body =>
    .forInStatement (Node.relocate left) (Node.relocate right) (Node.relocate body)
  | .forOfStatement left right body isAwait =>
    .forOfStatement (Node.relocate left) (Node.relocate right) (Node.relocate body) isAwait
  | .breakStatement label => .breakStatement (relocateMaybe label)
  | .continueStatement label => .continueStatement (relocateMaybe label)
  | .labeledStatement label body => .labeledStatement (Node.relocate label) (Node.relocate body)
  | .throwStatement argument => .throwStatement (Node.relocate argument)
  | .tryStatement block handler finalizer =>
    .tryStatement (Node.relocate block) (relocateMaybe handler) (relocateMaybe finalizer)
  | .catchClause param body => .catchClause (relocateMaybe param) (Node.relocate body)
  | .switchStatement discriminant cases =>
    .switchStatement (Node.relocate discriminant) (relocateAll cases)
  | .switchCase test consequent => .switchCase (relocateMaybe test) (relocateAll consequent)
  | .identifier name => .identifier name
  | .privateIdentifier name => .privateIdentifier name
  | .literal value raw => .literal value raw
  | .templateLiteral raw => .templateLiteral raw
  | .thisExpression => .thisExpression
  | .superExpression => .superExpression
  | .arrayExpression elements => .arrayExpression (relocateSlots elements)
  | .objectExpression properties => .objectExpression (relocateAll properties)
  | .property key value kind method shorthand computed =>
    .property (Node.relocate key) (Node.relocate value) kind method shorthand computed
  | .spreadElement argument => .spreadElement (Node.relocate argument)
  | .functionExpression f => .functionExpression (relocateFunction f)
  | .arrowFunctionExpression params body expression isAsync =>
    .arrowFunctionExpression (relocateAll params) (Node.relocate body) expression isAsync
  | .classExpression c => .classExpression (relocateClass c)
  | .unaryExpression operator argument => .unaryExpression operator (Node.relocate argument)
  | .updateExpression operator before argument =>
    .updateExpression operator before (Node.relocate argument)
  | .awaitExpression argument => .awaitExpression (Node.relocate argument)
  | .yieldExpression argument => .yieldExpression (relocateMaybe argument)
  | .binaryExpression operator left right =>
    .binaryExpression operator (Node.relocate left) (Node.relocate right)
  | .logicalExpression operator left right =>
    .logicalExpression operator (Node.relocate left) (Node.relocate right)
  | .assignmentExpression operator left right =>
    .assignmentExpression operator (Node.relocate left) (Node.relocate right)
  | .conditionalExpression test consequent alternate =>
    .conditionalExpression (Node.relocate test) (Node.relocate consequent)
      (Node.relocate alternate)
  | .callExpression callee arguments optional =>
    .callExpression (Node.relocate callee) (relocateAll arguments) optional
  | .newExpression callee arguments => .newExpression (Node.relocate callee) (relocateAll arguments)
  | .memberExpression target name computed optional =>
    .memberExpression (Node.relocate target) (Node.relocate name) computed optional
  | .sequenceExpression expressions => .sequenceExpression (relocateAll expressions)
  | .importExpression source options =>
    .importExpression (Node.relocate source) (relocateMaybe options)
  | .metaProperty target name => .metaProperty (Node.relocate target) (Node.relocate name)
  | .objectPattern properties => .objectPattern (relocateAll properties)
  | .arrayPattern elements => .arrayPattern (relocateSlots elements)
  | .restElement argument => .restElement (Node.relocate argument)
  | .assignmentPattern left right => .assignmentPattern (Node.relocate left) (Node.relocate right)

/-- Several nodes with all places changed. -/
def relocateAll : List Node → List Node
  | [] => []
  | n :: ns => Node.relocate n :: relocateAll ns

/-- A node that may be missing with all places changed. -/
def relocateMaybe : Option Node → Option Node
  | none => none
  | some n => some (Node.relocate n)

/-- A list with holes with all places changed. -/
def relocateSlots : List (Option Node) → List (Option Node)
  | [] => []
  | o :: os => relocateMaybe o :: relocateSlots os

/-- A block with all places changed. -/
def relocateBlock : Block Node → Block Node
  | { statements, span } => { statements := relocateAll statements, span := span.map (Span.relocate g) }

/-- A function with all places changed. -/
def relocateFunction : Function Node → Function Node
  | { id, params, body, isGenerator, isAsync } =>
    { id := relocateMaybe id
      params := relocateAll params
      body := relocateBlock body
      isGenerator
      isAsync }

/-- A class with all places changed. -/
def relocateClass : Class Node → Class Node
  | { id, superclass, body } =>
    { id := relocateMaybe id, superclass := relocateMaybe superclass, body := Node.relocate body }

end

end Definitions

variable {g : Location → Location}

section Lists

@[simp] lemma relocateAll_eq (ns : List Node) : relocateAll g ns = ns.map (Node.relocate g) := by
  induction ns with
  | nil => rfl
  | cons n ns ih => rw [relocateAll, ih, List.map_cons]

@[simp] lemma relocateMaybe_eq (o : Option Node) : relocateMaybe g o = o.map (Node.relocate g) := by
  cases o
  all_goals rfl

@[simp] lemma relocateSlots_eq (os : List (Option Node)) :
    relocateSlots g os = os.map (Option.map (Node.relocate g)) := by
  induction os with
  | nil => rfl
  | cons o os ih => rw [relocateSlots, ih, List.map_cons, relocateMaybe_eq]

@[simp] lemma relocateBlock_eq (b : Block Node) :
    relocateBlock g b =
      { statements := b.statements.map (Node.relocate g), span := b.span.map (Span.relocate g) } := by
  obtain ⟨statements, span⟩ := b
  rw [relocateBlock, relocateAll_eq]

end Lists

namespace Node

@[simp] lemma relocate_mk (f : Form Node) (s : Site) :
    (mk f s).relocate g = mk (f.relocate g) (s.relocate g) := rfl

@[simp] lemma form_relocate (n : Node) : (n.relocate g).form = n.form.relocate g := by
  obtain ⟨f, s⟩ := n
  rfl

@[simp] lemma site_relocate (n : Node) : (n.relocate g).site = n.site.relocate g := by
  obtain ⟨f, s⟩ := n
  rfl

@[simp] lemma span?_relocate (n : Node) :
    (n.relocate g).span? = n.span?.map (Span.relocate g) := by
  obtain ⟨f, s⟩ := n
  rfl

@[simp] lemma location?_relocate (n : Node) : (n.relocate g).location? = n.location?.map g := by
  obtain ⟨f, s⟩ := n
  rfl

@[simp] lemma siteTo_relocate (operand : Node) (last : Option Span) :
    (operand.relocate g).siteTo (last.map (Span.relocate g)) =
      (operand.siteTo last).relocate g := by
  simp [siteTo, Site.relocate]

end Node

namespace Form

/-- The children of a form are changed with it. -/
@[simp] lemma children_relocate (f : Form Node) :
    (f.relocate g).children = f.children.map (Node.relocate g) := by
  cases f
  case functionDeclaration f | functionExpression f =>
    obtain ⟨id, params, ⟨statements, span⟩, isGenerator, isAsync⟩ := f
    cases id
    all_goals simp [relocate, relocateFunction, children]
  case classDeclaration c | classExpression c =>
    obtain ⟨id, superclass, body⟩ := c
    cases id
    all_goals
      cases superclass
      all_goals simp [relocate, relocateClass, children]
  all_goals
    simp only [relocate, children, relocateAll_eq, relocateMaybe_eq, relocateSlots_eq,
      Option.toList_map, List.map_append, List.map_cons, List.map_nil, List.map_filterMap,
      List.filterMap_map]
  all_goals rfl

/-- No part of a form but its nodes and places is changed. -/
@[simp] lemma shape_relocate (f : Form Node) : (f.relocate g).shape = f.shape := by
  cases f
  case functionDeclaration f | functionExpression f =>
    obtain ⟨id, params, ⟨statements, span⟩, isGenerator, isAsync⟩ := f
    simp [relocate, relocateFunction, shape, Function.shape, Block.shape,
      Function.comp_def]
  case classDeclaration c | classExpression c =>
    obtain ⟨id, superclass, body⟩ := c
    simp [relocate, relocateClass, shape, Class.shape, Function.comp_def]
  all_goals simp [relocate, shape, Function.comp_def]

end Form

namespace Node

@[simp] lemma children_relocate (n : Node) :
    (n.relocate g).children = n.children.map (relocate g) := by
  rw [children, form_relocate, Form.children_relocate]
  rfl

/-- A node at other places is the same up to positions. -/
theorem alike_relocate (n : Node) : Alike n (n.relocate g) := by
  obtain ⟨f, s⟩ := n
  refine .mk (Form.shape_relocate f).symm ?_
  rw [Form.children_relocate, List.forall₂_map_right_iff]
  have each : ∀ c ∈ f.children, Alike c (c.relocate g) := fun c hc => by
    have := Form.sizeOf_lt_of_mem_children hc
    exact alike_relocate c
  exact List.forall₂_same.2 each
termination_by sizeOf n
decreasing_by
  simp only [Node.mk.sizeOf_spec]
  omega

@[simp] lemma kind_relocate (n : Node) : (n.relocate g).kind = n.kind :=
  (alike_relocate n).kind_eq.symm

@[simp] lemma kindOf_relocate (o : Option Node) : kindOf (o.map (relocate g)) = kindOf o := by
  cases o with
  | none => rfl
  | some n => exact kind_relocate n

/-- A walk meets the same nodes. -/
lemma preorder_relocate (n : Node) :
    (n.relocate g).preorder = n.preorder.map (relocate g) := by
  generalize size : sizeOf n = l
  induction l using Nat.strongRecOn generalizing n with
  | ind l ih =>
    subst size
    rw [preorder_eq, preorder_eq, List.map_cons, children_relocate, List.flatMap_map,
      List.map_flatMap]
    congr 1
    refine List.flatMap_congr fun c hc => ?_
    exact ih _ (sizeOf_lt_of_mem_children hc) c rfl

end Node

/-- An access with all places changed. -/
def Access.relocate (g : Location → Location) (a : Access) : Access :=
  { kind := match a.kind with
      | .call arguments => .call (arguments.map (Node.relocate g))
      | .member name => .member (name.relocate g)
      | .index expression => .index (expression.relocate g)
    optional := a.optional
    span := a.span.relocate g }

/-- A method with all places changed. -/
def Method.relocate (g : Location → Location) (m : Method) : Method :=
  { m with key := m.key.relocate g, value := m.value.relocate g }

namespace Phrase

/-- A phrase with all places changed. -/
def relocate (g : Location → Location) : Phrase → Phrase
  | finish => finish
  | token text => token text
  | node n => node (n.relocate g)
  | nodes ns => nodes (ns.map (Node.relocate g))
  | slot o => slot (o.map (Node.relocate g))
  | key n computed => key (n.relocate g) computed
  | block b => block (relocateBlock g b)
  | access a => access (a.relocate g)
  | update operator span => update operator (span.relocate g)
  | method m => method (m.relocate g)
  | shorthand n => shorthand (n.relocate g)
  | field k computed value => field (k.relocate g) computed (value.map (Node.relocate g))
  | heritage n => heritage (n.relocate g)
  | finalizer n => finalizer (n.relocate g)
  | forInit n => forInit (n.relocate g)
  | forTest n => forTest (n.relocate g)
  | forUpdate n => forUpdate (n.relocate g)
  | forClassic first second third =>
    forClassic (first.map (Node.relocate g)) (second.map (Node.relocate g))
      (third.map (Node.relocate g))
  | forEach left kind right => forEach (left.relocate g) kind (right.relocate g)
  | exported f => exported (f.relocate g)

@[simp] lemma relocate_node (g : Location → Location) (n : Node) :
    (node n).relocate g = node (n.relocate g) := rfl

end Phrase

end ScriptTyping
