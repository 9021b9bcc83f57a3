import ScriptTyping.Proofs.Grammar.Words
import ScriptTyping.Proofs.Syntax.Operation

/-!
# Terms and how they are printed

A `Term` is an expression without positions: names, whole numbers, and what operators, lists, members and
calls make of them. `Term.body` prints a term; every part of it that is no name stands in parentheses of its
own (`Term.part`), and blanks stand around operators. `Term.node` is the node that stands for a term, but
stands nowhere in a text.
-/

namespace ScriptTyping

/-- A whole number as it is written. -/
structure Numeral where
  text : List Char
  ne_nil : text ≠ []
  digits : text.all Char.isDigit = true

/-- The magnitude that a numeral denotes. -/
def Numeral.value (n : Numeral) : Magnitude :=
  .ofDecimal (Literal.digitsValue 10 n.text) 0

/-- Expressions made of names and whole numbers. -/
inductive Term where
  | name (n : Grammar.Name)
  | numeral (n : Numeral)
  | unary (op : UnaryOperator) (operand : Term)
  | join (op : Connective) (left right : Term)
  | conditional (test consequent alternate : Term)
  | array (items : List Term)
  | member (object : Term) (name : Grammar.Word)
  | call (callee : Term) (arguments : List Term)

namespace Term

/-- What is proved of a term from what holds of its parts holds of every term. -/
@[elab_as_elim, induction_eliminator]
theorem induction {motive : Term → Prop}
    (name : ∀ n, motive (name n))
    (numeral : ∀ n, motive (numeral n))
    (unary : ∀ op operand, motive operand → motive (unary op operand))
    (join : ∀ op left right, motive left → motive right → motive (join op left right))
    (conditional : ∀ test consequent alternate, motive test → motive consequent → motive alternate →
      motive (conditional test consequent alternate))
    (array : ∀ items, (∀ t ∈ items, motive t) → motive (array items))
    (member : ∀ object name, motive object → motive (member object name))
    (call : ∀ callee arguments, motive callee → (∀ t ∈ arguments, motive t) →
      motive (call callee arguments)) (t : Term) : motive t :=
  Term.rec (motive_1 := motive) (motive_2 := fun ts => ∀ t ∈ ts, motive t) name numeral unary join
    conditional array member call (by simp) (fun _ _ first others => List.forall_mem_cons.2 ⟨first, others⟩) t

/-- A part of a term, which stands in parentheses unless it is a name. -/
def enclosed : Term → List Char → List Char
  | name _, cs => cs
  | _, cs => '(' :: (cs ++ [')'])

/-- Texts with commas between them. -/
def separated : List (List Char) → List Char
  | [] => []
  | cs :: rest => cs ++ rest.flatMap fun ds => ',' :: ' ' :: ds

mutual

/-- How a term is printed where nothing else belongs to it. -/
def body : Term → List Char
  | name n => n.text
  | numeral n => n.text
  | unary op t => op.symbol.toList ++ ' ' :: enclosed t t.body
  | join op a b => enclosed a a.body ++ (' ' :: op.symbol.toList ++ ' ' :: enclosed b b.body)
  | conditional a b c =>
    enclosed a a.body ++ (" ? ".toList ++ (enclosed b b.body ++ (" : ".toList ++ enclosed c c.body)))
  | array ts => '[' :: (separated (bodies ts) ++ [']'])
  | member t w => enclosed t t.body ++ '.' :: w.text
  | call f ts => enclosed f f.body ++ '(' :: (separated (bodies ts) ++ [')'])

/-- How terms are printed as parts of another one. -/
def bodies : List Term → List (List Char)
  | [] => []
  | t :: ts => enclosed t t.body :: bodies ts

end

/-- How a term is printed as a part of another one. -/
def part (t : Term) : List Char :=
  enclosed t t.body

lemma bodies_eq (ts : List Term) : bodies ts = ts.map part := by
  induction ts with
  | nil => rfl
  | cons t ts ih => exact congrArg (part t :: ·) ih

section Texts

variable (n : Grammar.Name) (m : Numeral) (s t u : Term) (ts : List Term) (w : Grammar.Word)

lemma body_name : (name n).body = n.text := rfl

lemma body_numeral : (numeral m).body = m.text := rfl

lemma body_unary (op : UnaryOperator) :
    (unary op t).body = op.symbol.toList ++ ([' '] ++ t.part) := rfl

lemma body_join (op : Connective) :
    (join op s t).body = s.part ++ ([' '] ++ (op.symbol.toList ++ ([' '] ++ t.part))) := rfl

lemma body_conditional : (conditional s t u).body =
    s.part ++ ([' '] ++ (['?'] ++ ([' '] ++ (t.part ++ ([' '] ++ ([':'] ++ ([' '] ++ u.part))))))) := rfl

lemma body_array : (array ts).body = ['['] ++ (separated (ts.map part) ++ [']']) := by
  rw [← bodies_eq]
  rfl

lemma body_member : (member t w).body = t.part ++ (['.'] ++ w.text) := rfl

lemma body_call : (call t ts).body = t.part ++ (['('] ++ (separated (ts.map part) ++ [')'])) := by
  rw [← bodies_eq]
  rfl

lemma separated_cons (cs : List Char) (rest : List (List Char)) :
    separated (cs :: rest) = cs ++ rest.flatMap fun ds => [','] ++ ([' '] ++ ds) := rfl

/-- A part of a term is a name, or stands in parentheses. -/
lemma part_cases : (∃ n, t = name n ∧ t.part = n.text) ∨ t.part = ['('] ++ (t.body ++ [')']) := by
  cases t
  case name n => exact .inl ⟨n, rfl, body_name n⟩
  all_goals exact .inr rfl

end Texts

mutual

/-- The node that stands for a term. -/
def node : Term → Node
  | name n => .mk (.identifier (String.ofList n.text)) default
  | numeral n => .mk (.literal (.number n.value) (String.ofList n.text)) default
  | unary op t => .mk (.unaryExpression op t.node) default
  | join op a b => .mk (op.form a.node b.node) default
  | conditional a b c => .mk (.conditionalExpression a.node b.node c.node) default
  | array ts => .mk (.arrayExpression ((nodes ts).map some)) default
  | member t w =>
    .mk (.memberExpression t.node (.mk (.identifier (String.ofList w.text)) default) false false) default
  | call f ts => .mk (.callExpression f.node (nodes ts) false) default

/-- The nodes that stand for terms. -/
def nodes : List Term → List Node
  | [] => []
  | t :: ts => t.node :: nodes ts

end

lemma nodes_eq (ts : List Term) : nodes ts = ts.map node := by
  induction ts with
  | nil => rfl
  | cons t ts ih => exact congrArg (t.node :: ·) ih

end Term

end ScriptTyping
