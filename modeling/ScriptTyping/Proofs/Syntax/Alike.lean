import Mathlib.Data.List.Forall2
import Mathlib.Tactic.Lemma
import ScriptTyping.Inference

/-!
# Trees that are equal up to positions

The shape of a form is what is left of it without its child nodes and without places. Two nodes are
alike when they have the same shape and their children are alike one by one. The kind of an
expression depends on nothing else (`Node.Alike.kind_eq`).
-/

namespace ScriptTyping

/-- A block without its statements and its place. -/
def Block.shape {α : Type} (b : Block α) : Block Unit :=
  { statements := b.statements.map fun _ => (), span := default }

/-- A function without its nodes. -/
def Function.shape {α : Type} (f : Function α) : Function Unit :=
  { id := f.id.map fun _ => ()
    params := f.params.map fun _ => ()
    body := f.body.shape
    isGenerator := f.isGenerator
    isAsync := f.isAsync }

/-- A class without its nodes. -/
def Class.shape {α : Type} (c : Class α) : Class Unit :=
  { id := c.id.map fun _ => (), superclass := c.superclass.map fun _ => (), body := () }

namespace Form

variable {α : Type}

/-- A form without its child nodes. -/
def shape : Form α → Form Unit
  | program body => program (body.map fun _ => ())
  | variableDeclaration kind declarations =>
    variableDeclaration kind (declarations.map fun _ => ())
  | variableDeclarator _ init => variableDeclarator () (init.map fun _ => ())
  | functionDeclaration f => functionDeclaration f.shape
  | classDeclaration c => classDeclaration c.shape
  | classBody members => classBody (members.map fun _ => ())
  | methodDefinition _ _ kind computed isStatic => methodDefinition () () kind computed isStatic
  | propertyDefinition _ value computed isStatic =>
    propertyDefinition () (value.map fun _ => ()) computed isStatic
  | importDeclaration specifiers _ => importDeclaration (specifiers.map fun _ => ()) ()
  | importSpecifier _ _ => importSpecifier () ()
  | importDefaultSpecifier _ => importDefaultSpecifier ()
  | importNamespaceSpecifier _ => importNamespaceSpecifier ()
  | exportNamedDeclaration declaration specifiers source =>
    exportNamedDeclaration (declaration.map fun _ => ()) (specifiers.map fun _ => ())
      (source.map fun _ => ())
  | exportSpecifier _ _ => exportSpecifier () ()
  | exportDefaultDeclaration _ => exportDefaultDeclaration ()
  | exportAllDeclaration exported _ => exportAllDeclaration (exported.map fun _ => ()) ()
  | expressionStatement _ => expressionStatement ()
  | blockStatement body => blockStatement (body.map fun _ => ())
  | emptyStatement => emptyStatement
  | returnStatement argument => returnStatement (argument.map fun _ => ())
  | ifStatement _ _ alternate => ifStatement () () (alternate.map fun _ => ())
  | whileStatement _ _ => whileStatement () ()
  | doWhileStatement _ _ => doWhileStatement () ()
  | forStatement init test update _ =>
    forStatement (init.map fun _ => ()) (test.map fun _ => ()) (update.map fun _ => ()) ()
  | forInStatement _ _ _ => forInStatement () () ()
  | forOfStatement _ _ _ isAwait => forOfStatement () () () isAwait
  | breakStatement label => breakStatement (label.map fun _ => ())
  | continueStatement label => continueStatement (label.map fun _ => ())
  | labeledStatement _ _ => labeledStatement () ()
  | throwStatement _ => throwStatement ()
  | tryStatement _ handler finalizer =>
    tryStatement () (handler.map fun _ => ()) (finalizer.map fun _ => ())
  | catchClause param _ => catchClause (param.map fun _ => ()) ()
  | switchStatement _ cases => switchStatement () (cases.map fun _ => ())
  | switchCase test consequent =>
    switchCase (test.map fun _ => ()) (consequent.map fun _ => ())
  | identifier name => identifier name
  | privateIdentifier name => privateIdentifier name
  | literal value raw => literal value raw
  | templateLiteral raw => templateLiteral raw
  | thisExpression => thisExpression
  | superExpression => superExpression
  | arrayExpression elements => arrayExpression (elements.map (·.map fun _ => ()))
  | objectExpression properties => objectExpression (properties.map fun _ => ())
  | property _ _ kind method shorthand computed => property () () kind method shorthand computed
  | spreadElement _ => spreadElement ()
  | functionExpression f => functionExpression f.shape
  | arrowFunctionExpression params _ expression isAsync =>
    arrowFunctionExpression (params.map fun _ => ()) () expression isAsync
  | classExpression c => classExpression c.shape
  | unaryExpression operator _ => unaryExpression operator ()
  | updateExpression operator before _ => updateExpression operator before ()
  | awaitExpression _ => awaitExpression ()
  | yieldExpression argument => yieldExpression (argument.map fun _ => ())
  | binaryExpression operator _ _ => binaryExpression operator () ()
  | logicalExpression operator _ _ => logicalExpression operator () ()
  | assignmentExpression operator _ _ => assignmentExpression operator () ()
  | conditionalExpression _ _ _ => conditionalExpression () () ()
  | callExpression _ arguments optional => callExpression () (arguments.map fun _ => ()) optional
  | newExpression _ arguments => newExpression () (arguments.map fun _ => ())
  | memberExpression _ _ computed optional => memberExpression () () computed optional
  | sequenceExpression expressions => sequenceExpression (expressions.map fun _ => ())
  | importExpression _ options => importExpression () (options.map fun _ => ())
  | metaProperty _ _ => metaProperty () ()
  | objectPattern properties => objectPattern (properties.map fun _ => ())
  | arrayPattern elements => arrayPattern (elements.map (·.map fun _ => ()))
  | restElement _ => restElement ()
  | assignmentPattern _ _ => assignmentPattern () ()

end Form

namespace Node

/-- Equality of nodes up to positions. -/
inductive Alike : Node → Node → Prop
  | mk {f g : Form Node} {s t : Site} :
    f.shape = g.shape →
    List.Forall₂ Alike f.children g.children →
    Alike (.mk f s) (.mk g t)

namespace Alike

variable {m n : Node}

lemma shape_eq (h : Alike m n) : m.form.shape = n.form.shape := by
  cases h with
  | mk shape _ => exact shape

lemma children (h : Alike m n) : List.Forall₂ Alike m.children n.children := by
  cases h with
  | mk _ children => exact children

/-- A node is equal to itself. -/
lemma refl (n : Node) : Alike n n := by
  obtain ⟨f, s⟩ := n
  refine .mk rfl ?_
  have each : ∀ c ∈ f.children, Alike c c := fun c hc => by
    have := Form.sizeOf_lt_of_mem_children hc
    exact refl c
  exact List.forall₂_same.2 each
termination_by sizeOf n
decreasing_by
  simp only [Node.mk.sizeOf_spec]
  omega

/-- Nodes of one form are alike wherever they stand. -/
lemma of_form (f : Form Node) (s t : Site) : Alike (.mk f s) (.mk f t) :=
  .mk rfl (refl (.mk f s)).children

/-- The first elements of arrays with the same holes are alike. -/
lemma first {x y : Node} {as bs : List (Option Node)}
    (children : List.Forall₂ Alike ((some x :: as).filterMap id) ((some y :: bs).filterMap id)) :
    Alike x y := by
  simp only [List.filterMap_cons_some (f := id) rfl] at children
  exact (List.forall₂_cons.1 children).1

end Alike

/-- The entries of an object with one more property. -/
def entriesWith (entries : List (String × Kind)) (p : Node) : List (String × Kind) :=
  match p.namedValue? with
  | some (name, value) => Kind.withEntry entries (name, value.kind)
  | none => entries

/-- The kind of an expression from the kinds of its parts. -/
lemma kind_mk (f : Form Node) (s : Site) :
    (Node.mk f s).kind =
      match f with
      | .literal value _ => value.kind
      | .arrayExpression (some first :: _) => .array first.kind
      | .arrayExpression _ => .array .any
      | .objectExpression properties => .object (properties.foldl entriesWith [])
      | .binaryExpression operator _ _ => if operator.isArithmetic then .number else .any
      | _ => .any := by
  cases f
  case arrayExpression es =>
    match es with
    | [] => rw [kind]; rfl
    | none :: _ => rw [kind]; rfl
    | some _ :: _ => rw [kind]; rfl
  case objectExpression properties =>
    rw [kind]
    change Kind.object _ = Kind.object (properties.foldl entriesWith [])
    rw [← List.foldl_attach (l := properties) (f := entriesWith)]
    refine congrArg (fun step => Kind.object (properties.attach.foldl step [])) ?_
    funext entries ⟨p, _⟩
    unfold entriesWith
    dsimp only
    split
    all_goals
      rename_i e
      simp only [e]
  all_goals
    rw [kind]
    rfl

namespace Alike

/-- A key spells the same name wherever it stands. -/
lemma keyName?_eq {m n : Node} (h : Alike m n) (computed : Bool) :
    m.keyName? computed = n.keyName? computed := by
  obtain @⟨f, g, s, t, shape, _⟩ := h
  unfold keyName?
  dsimp only [form]
  cases f
  case identifier | literal =>
    cases g
    all_goals cases shape
    rfl
  all_goals
    dsimp only
    split
    all_goals first
      | rfl
      | cases shape

/-- Properties that are alike have values that are alike under one name. -/
lemma namedValue? {p q : Node} (h : Alike p q) :
    (p.namedValue? = none ∧ q.namedValue? = none) ∨
      ∃ name v w, p.namedValue? = some (name, v) ∧ q.namedValue? = some (name, w) ∧
        Alike v w := by
  obtain @⟨f, g, s, t, shape, children⟩ := h
  unfold Node.namedValue?
  dsimp only [form]
  cases f
  case property key value kind method shorthand computed =>
    cases g
    all_goals cases shape
    case property key' value' =>
      simp only [Form.children, List.forall₂_cons] at children
      dsimp only
      rw [children.1.keyName?_eq]
      cases key'.keyName? computed with
      | none => exact .inl ⟨rfl, rfl⟩
      | some name => exact .inr ⟨name, value, value', rfl, rfl, children.2.1⟩
  all_goals
    refine .inl ⟨rfl, ?_⟩
    split
    all_goals first
      | rfl
      | cases shape

/-- The kind of an expression does not depend on positions. -/
theorem kind_eq {m n : Node} (h : Alike m n) : m.kind = n.kind := by
  generalize size : sizeOf m = l
  -- On the size of the first node: the values behind its keys lie two levels below it.
  induction l using Nat.strongRecOn generalizing m n with
  | ind l ih =>
    have parts {x y : Node} (hx : sizeOf x < sizeOf m) (alike : Alike x y) : x.kind = y.kind :=
      ih _ (size ▸ hx) alike rfl
    obtain @⟨f, g, s, t, shape, children⟩ := h
    rw [kind_mk, kind_mk]
    cases f
    case literal | binaryExpression =>
      cases g
      all_goals cases shape
      rfl
    case arrayExpression as =>
      cases g
      case arrayExpression bs =>
        simp only [Form.shape, Form.arrayExpression.injEq] at shape
        rcases as with _ | ⟨_ | x, xs⟩
        all_goals rcases bs with _ | ⟨_ | y, ys⟩
        case nil.nil | cons.none.cons.none => rfl
        case cons.some.cons.some =>
          have child : sizeOf x < _ :=
            sizeOf_lt_of_mem_children (n := .mk (.arrayExpression (some x :: xs)) s)
              (by simp [Node.children, form, Form.children])
          exact congrArg Kind.array (parts child (first children))
        all_goals cases shape
      all_goals cases shape
    case objectExpression ps =>
      cases g
      case objectExpression qs =>
        have each : ∀ p ∈ ps, ∀ q, Alike p q → ∀ entries,
            entriesWith entries p = entriesWith entries q := by
          intro p hp q alike entries
          unfold entriesWith
          rcases alike.namedValue? with ⟨hp, hq⟩ | ⟨name, v, w, hv, hw, values⟩
          · rw [hp, hq]
          · have child : sizeOf p < _ :=
              sizeOf_lt_of_mem_children (n := .mk (.objectExpression ps) s) hp
            have value := sizeOf_lt_of_namedValue? hv
            rw [hv, hw]
            exact congrArg (fun k => Kind.withEntry entries (name, k)) (parts (by omega) values)
        refine congrArg Kind.object ?_
        clear shape parts size
        change List.Forall₂ Alike ps qs at children
        generalize [] = entries
        induction children generalizing entries with
        | nil => rfl
        | cons alike rest ih =>
          rw [List.foldl_cons, List.foldl_cons, each _ List.mem_cons_self _ alike]
          exact ih (fun p hp => each p (List.mem_cons_of_mem _ hp)) _
      all_goals cases shape
    all_goals
      dsimp only
      split
      all_goals first
        | rfl
        | cases shape

end Alike

end Node

end ScriptTyping
