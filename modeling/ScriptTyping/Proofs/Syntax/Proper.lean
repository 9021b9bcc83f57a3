import Mathlib.Tactic.Lemma
import ScriptTyping.Syntax.Node

/-!
# Proper syntax trees

The type of syntax trees lets any node stand in any place. Those who read a tree expect less than that:
a declaration has declarators, a pattern has its parts, a class has members. `Form.Proper` says what is
expected of the children of a node, and a node is proper if this holds of it and of all nodes below it
(`Node.proper_mk`).
-/

namespace ScriptTyping

namespace Form

variable {α : Type}

/-- What a declaration or a parameter may bind. -/
def isTarget : Form α → Bool
  | identifier _ | objectPattern _ | arrayPattern _ => true
  | _ => false

/-- What may stand in a list of parameters or in an array pattern. -/
def isParameter : Form α → Bool
  | assignmentPattern .. | restElement _ => true
  | f => f.isTarget

/-- A declarator of variables. -/
def isDeclarator : Form α → Bool
  | variableDeclarator .. => true
  | _ => false

/-- What may stand in an object pattern. -/
def isPatternPart : Form α → Bool
  | property .. | restElement _ => true
  | _ => false

/-- What may stand in an object. -/
def isObjectPart : Form α → Bool
  | property .. | spreadElement _ => true
  | _ => false

/-- What may stand in a class. -/
def isMember : Form α → Bool
  | methodDefinition .. | propertyDefinition .. => true
  | _ => false

/-- A function without a name. -/
def isMethodValue : Form α → Bool
  | functionExpression f => f.id.isNone
  | _ => false

/-- A block of statements. -/
def isBlock : Form α → Bool
  | blockStatement _ => true
  | _ => false

/-- A handler for errors. -/
def isHandler : Form α → Bool
  | catchClause .. => true
  | _ => false

/-- A case of a choice between values. -/
def isCase : Form α → Bool
  | switchCase .. => true
  | _ => false

lemma isParameter_of_isTarget {f : Form α} (h : f.isTarget = true) : f.isParameter = true := by
  cases f
  case assignmentPattern | restElement => rfl
  all_goals exact h

/-- What is expected of the children of a node. -/
@[simp] def Proper : Form Node → Prop
  | variableDeclaration _ declarations =>
    declarations ≠ [] ∧ ∀ d ∈ declarations, d.form.isDeclarator = true
  | variableDeclarator id _ => id.form.isTarget = true
  | functionDeclaration f | functionExpression f => ∀ p ∈ f.params, p.form.isParameter = true
  | arrowFunctionExpression params body expression _ =>
    (∀ p ∈ params, p.form.isParameter = true) ∧ (expression = true ↔ body.form.isBlock = false)
  | classBody members => ∀ m ∈ members, m.form.isMember = true
  | methodDefinition key value kind computed isStatic =>
    value.form.isMethodValue = true ∧
      (kind = .constructor → isStatic = false ∧ computed = false ∧ key.name? = some "constructor")
  | tryStatement block handler finalizer =>
    block.form.isBlock = true ∧ (∀ h ∈ handler, h.form.isHandler = true) ∧
      ∀ b ∈ finalizer, b.form.isBlock = true
  | catchClause _ body => body.form.isBlock = true
  | switchStatement _ cases => ∀ c ∈ cases, c.form.isCase = true
  | sequenceExpression expressions => 2 ≤ expressions.length
  | objectExpression properties => ∀ p ∈ properties, p.form.isObjectPart = true
  | objectPattern properties => ∀ p ∈ properties, p.form.isPatternPart = true
  | arrayPattern elements => ∀ slot ∈ elements, ∀ n ∈ slot, n.form.isParameter = true
  | restElement target | assignmentPattern target _ => target.form.isTarget = true
  | _ => True

end Form

namespace Node

lemma self_mem_preorder (n : Node) : n ∈ n.preorder := by
  rw [preorder_eq]
  exact List.mem_cons_self

lemma mem_preorder_of_mem_children {n c m : Node} (h : c ∈ n.children) (hm : m ∈ c.preorder) :
    m ∈ n.preorder := by
  rw [preorder_eq]
  exact List.mem_cons_of_mem _ (List.mem_flatMap.2 ⟨c, h, hm⟩)

/-- A walk meets all children of a node that it meets. -/
lemma mem_preorder_of_child {n m c : Node} (hm : m ∈ n.preorder) (hc : c ∈ m.children) :
    c ∈ n.preorder := by
  rw [preorder_eq] at hm
  rcases List.mem_cons.1 hm with rfl | hm
  · exact mem_preorder_of_mem_children hc c.self_mem_preorder
  · obtain ⟨d, hd, hm⟩ := List.mem_flatMap.1 hm
    have small := sizeOf_lt_of_mem_children hd
    exact mem_preorder_of_mem_children hd (mem_preorder_of_child hm hc)
  termination_by sizeOf n

/-- What is expected of a node holds of it and of all nodes below it. -/
def Proper (n : Node) : Prop :=
  ∀ m ∈ n.preorder, m.form.Proper

@[simp] lemma proper_mk (f : Form Node) (s : Site) :
    (mk f s).Proper ↔ f.Proper ∧ ∀ c ∈ f.children, c.Proper := by
  constructor
  · exact fun h => ⟨h _ (self_mem_preorder _), fun c hc m hm =>
      h m (mem_preorder_of_mem_children hc hm)⟩
  · rintro ⟨own, below⟩ m hm
    rw [preorder_eq] at hm
    rcases List.mem_cons.1 hm with rfl | hm
    · exact own
    · obtain ⟨c, hc, hm⟩ := List.mem_flatMap.1 hm
      exact below c hc m hm

end Node

end ScriptTyping
