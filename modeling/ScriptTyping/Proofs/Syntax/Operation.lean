import Mathlib.Tactic.Lemma
import ScriptTyping.Grammar.Rule
import ScriptTyping.Proofs.Syntax.Alike
import ScriptTyping.Proofs.Phrases.Expression

/-!
# Operands joined by operators

A `Connective` joins two operands, and binds at one of the ten levels of precedence. An `Operation` is a
tree of operands so joined; it is `Grouped` when each connective has on its left what binds as tightly or
tighter, and on its right what binds tighter. The operands and connectives in order determine the grouped
operation (`Operation.Grouped.unique`).
-/

namespace ScriptTyping

/-- How tightly a level binds. -/
def Precedence.tightness : Precedence → Nat
  | logicalOr => 0
  | logicalAnd => 1
  | bitwiseOr => 2
  | bitwiseXor => 3
  | bitwiseAnd => 4
  | equality => 5
  | relational => 6
  | shift => 7
  | additive => 8
  | multiplicative => 9

lemma Precedence.tightness_injective {a b : Precedence} (h : a.tightness = b.tightness) : a = b := by
  cases a <;> cases b <;> first | rfl | cases h

lemma Precedence.mem_all (l : Precedence) : l ∈ all := by
  cases l <;> decide

/-- The next tighter level is tighter by one. -/
lemma Precedence.tightness_next {a b : Precedence} (h : a.next? = some b) :
    b.tightness = a.tightness + 1 := by
  cases a <;> cases h <;> rfl

lemma Precedence.tightness_le_of_last {a : Precedence} (h : a.next? = none) (b : Precedence) :
    b.tightness ≤ a.tightness := by
  cases a <;> cases h
  cases b <;> decide

/-- An operator between two operands. -/
inductive Connective where
  | binary (op : BinaryOperator)
  | logical (op : LogicalOperator)
  deriving DecidableEq, Repr

namespace Connective

/-- The connectives. -/
def all : List Connective :=
  BinaryOperator.all.map binary ++ LogicalOperator.all.map logical

lemma mem_all (op : Connective) : op ∈ all := by
  cases op with
  | binary op => cases op <;> decide
  | logical op => cases op <;> decide

/-- The spelling of a connective. -/
def symbol : Connective → String
  | binary op => op.symbol
  | logical op => op.symbol

/-- The level at which a connective binds. -/
def level : Connective → Precedence
  | logical .or | logical .nullish => .logicalOr
  | logical .and => .logicalAnd
  | binary .bitOr => .bitwiseOr
  | binary .bitXor => .bitwiseXor
  | binary .bitAnd => .bitwiseAnd
  | binary .eq | binary .ne | binary .strictEq | binary .strictNe => .equality
  | binary .lt | binary .le | binary .gt | binary .ge | binary .isIn | binary .instanceOf =>
    .relational
  | binary .shiftLeft | binary .shiftRight | binary .shiftRightZero => .shift
  | binary .add | binary .sub => .additive
  | binary .mul | binary .div | binary .mod | binary .power => .multiplicative

/-- The form of two nodes that are joined. -/
def form (op : Connective) (left right : Node) : Form Node :=
  match op with
  | binary op => .binaryExpression op left right
  | logical op => .logicalExpression op left right

/-- Two nodes that are joined, from the start of the first to the end of the second. -/
def join (op : Connective) (left right : Node) : Node :=
  .mk (op.form left right) (left.siteTo right.span?)

/-- Operands are joined by the connective that is so spelled. -/
lemma combine_symbol (op : Connective) (left right : Node) :
    Reading.combine op.symbol left right = some (op.join left right) := by
  cases op with
  | binary op => cases op <;> rfl
  | logical op => cases op <;> rfl

/-- Nodes that are alike are alike when they are joined. -/
lemma alike_join (op : Connective) {l l' r r' : Node} (left : l.Alike l') (right : r.Alike r') :
    (op.join l r).Alike (op.join l' r') := by
  cases op with
  | binary op => exact .mk rfl (.cons left (.cons right .nil))
  | logical op => exact .mk rfl (.cons left (.cons right .nil))

end Connective

/-- Operands joined by connectives. -/
inductive Operation (α : Type) where
  | operand (a : α)
  | join (op : Connective) (left right : Operation α)

namespace Operation

variable {α β : Type}

/-- The operation with other operands in place of its own. -/
def map (f : α → β) : Operation α → Operation β
  | operand a => operand (f a)
  | join op left right => join op (left.map f) (right.map f)

/-- The first operand. -/
def first : Operation α → α
  | operand a => a
  | join _ left _ => left.first

/-- The other operands, each with the connective before it. -/
def rest : Operation α → List (Connective × α)
  | operand _ => []
  | join op left right => left.rest ++ (op, right.first) :: right.rest

/-- The connective that joins the whole. -/
def root? : Operation α → Option Connective
  | operand _ => none
  | join op _ _ => some op

/-- What is joined binds as tightly on the left, and tighter on the right. -/
def Grouped : Operation α → Prop
  | operand _ => True
  | join op left right =>
    left.Grouped ∧ right.Grouped ∧
      (∀ o ∈ left.root?, op.level.tightness ≤ o.level.tightness) ∧
      ∀ o ∈ right.root?, op.level.tightness < o.level.tightness

/-- The node of an operation on nodes. -/
def node : Operation Node → Node
  | operand n => n
  | join op left right => op.join left.node right.node

@[simp] lemma first_map (f : α → β) (t : Operation α) : (t.map f).first = f t.first := by
  induction t with
  | operand a => rfl
  | join op left right ihl _ => exact ihl

attribute [local simp] map rest in
lemma rest_map (f : α → β) (t : Operation α) :
    (t.map f).rest = t.rest.map fun p => (p.1, f p.2) := by
  induction t with
  | operand a => rfl
  | join op left right ihl ihr => simp [ihl, ihr]

lemma map_map {γ : Type} (g : β → γ) (f : α → β) (t : Operation α) :
    (t.map f).map g = t.map fun a => g (f a) := by
  induction t with
  | operand a => rfl
  | join op left right ihl ihr => simp [map, ihl, ihr]

lemma root?_map (f : α → β) (t : Operation α) : (t.map f).root? = t.root? := by
  cases t with
  | operand a => rfl
  | join op left right => rfl

lemma Grouped.map {t : Operation α} (h : t.Grouped) (f : α → β) : (t.map f).Grouped := by
  induction t with
  | operand a => trivial
  | join op left right ihl ihr =>
    obtain ⟨hl, hr, loose, tight⟩ := h
    refine ⟨ihl hl, ihr hr, ?_, ?_⟩
    · rwa [root?_map]
    · rwa [root?_map]

/-- Operations whose operands are alike one by one have nodes that are alike. -/
lemma alike_node {f g : α → Node} (h : ∀ a, (f a).Alike (g a)) (t : Operation α) :
    (t.map f).node.Alike (t.map g).node := by
  induction t with
  | operand a => exact h a
  | join op left right ihl ihr => exact op.alike_join ihl ihr

/-- The connective of the whole is one of the connectives in order. -/
lemma exists_mem_of_root? {t : Operation α} {o : Connective} (h : o ∈ t.root?) :
    ∃ a, (o, a) ∈ t.rest := by
  cases t with
  | operand a => cases h
  | join op left right =>
    cases h
    exact ⟨right.first, by simp [rest]⟩

/-- In a grouped operation nothing binds looser than the whole. -/
lemma Grouped.le_of_root {t : Operation α} (h : t.Grouped) {k : Nat}
    (root : ∀ o ∈ t.root?, k ≤ o.level.tightness) : ∀ p ∈ t.rest, k ≤ p.1.level.tightness := by
  induction t with
  | operand a => simp [rest]
  | join op left right ihl ihr =>
    obtain ⟨hl, hr, loose, tight⟩ := h
    have whole := root op rfl
    intro p hp
    simp only [rest, List.mem_append, List.mem_cons] at hp
    rcases hp with hp | rfl | hp
    · exact ihl hl (fun o ho => Nat.le_trans whole (loose o ho)) p hp
    · exact whole
    · exact ihr hr (fun o ho => Nat.le_trans whole (Nat.le_of_lt (tight o ho))) p hp

/-- Two grouped operations with the same connectives in order are joined at the same place. -/
lemma Grouped.not_split {op op' : Connective} {left right left' right' : Operation α}
    (h : (join op left right).Grouped) (h' : (join op' left' right').Grouped)
    {as : List (Connective × α)} (before : left'.rest = left.rest ++ (op, right.first) :: as)
    (after : right.rest = as ++ (op', right'.first) :: right'.rest) : False := by
  obtain ⟨-, hr, -, tight⟩ := h
  obtain ⟨hl', -, loose', -⟩ := h'
  -- The second connective binds tighter than the first, because it stands on the right of it.
  have tighter : op.level.tightness + 1 ≤ op'.level.tightness :=
    hr.le_of_root tight (op', right'.first) (by simp [after])
  have looser : op'.level.tightness ≤ op.level.tightness :=
    hl'.le_of_root loose' (op, right.first) (by simp [before])
  omega

/-- The operands and connectives in order determine the grouped operation. -/
theorem Grouped.unique {t t' : Operation α} (h : t.Grouped) (h' : t'.Grouped)
    (first_eq : t.first = t'.first) (rest_eq : t.rest = t'.rest) : t = t' := by
  induction t generalizing t' with
  | operand a =>
    cases t' with
    | operand b => rw [show a = b from first_eq]
    | join op' left' right' => simp [rest] at rest_eq
  | join op left right ihl ihr =>
    cases t' with
    | operand b => simp [rest] at rest_eq
    | join op' left' right' =>
      rcases List.append_eq_append_iff.1 rest_eq with ⟨as, before, after⟩ | ⟨as, before, after⟩
      · cases as with
        | nil =>
          simp only [List.append_nil, List.nil_append, List.cons.injEq, Prod.mk.injEq] at before after
          obtain ⟨⟨rfl, first_right⟩, rest_right⟩ := after
          rw [ihl h.1 h'.1 first_eq before.symm, ihr h.2.1 h'.2.1 first_right rest_right]
        | cons p as =>
          simp only [List.cons_append, List.cons.injEq] at after
          obtain ⟨rfl, after⟩ := after
          exact (h.not_split h' before after).elim
      · cases as with
        | nil =>
          simp only [List.append_nil, List.nil_append, List.cons.injEq, Prod.mk.injEq] at before after
          obtain ⟨⟨rfl, first_right⟩, rest_right⟩ := after
          rw [ihl h.1 h'.1 first_eq before, ihr h.2.1 h'.2.1 first_right.symm rest_right.symm]
        | cons p as =>
          simp only [List.cons_append, List.cons.injEq] at after
          obtain ⟨rfl, after⟩ := after
          exact (h'.not_split h before after).elim

end Operation

end ScriptTyping
