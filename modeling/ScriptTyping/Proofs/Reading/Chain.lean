import ScriptTyping.Proofs.Reading.Denotes
import ScriptTyping.Proofs.Syntax.Operation

/-!
# Reading operands and operators

A `Tail` is what follows an operand: connectives, each with its operand after it. The ten levels of the
grammar read an operand and its tail as the grouped operation (`Tail.grouped`). A level reads what binds
tighter as one operand and then goes on as long as connectives of its own follow; the operands it has read
are joined from left to right.
-/

namespace ScriptTyping.Reading
open Peg Grammar Peg.Expr

variable {α : Type} {file : String} {source : List Char} {value : α → Node}

/-- An operand with the gap after it. -/
structure Operand (file : String) (source : List Char) (n : Node) (c d : Cursor) : Prop where
  denotes : Denotes file source (.once (.call .unaryExpression)) c d [.node n]
  closed : Closed d

/-- A connective with the gap after it; the levels that bind tighter find none there. -/
structure Joint (file : String) (source : List Char) (op : Connective) (c d : Cursor) : Prop where
  denotes : ∃ c', Denotes file source (.once (.call (.binaryOperator op.level))) c c'
    [.token op.symbol] ∧ GapTo c' d
  tighter : ∀ l : Precedence, op.level.tightness < l.tightness → Fails (.call (.binaryOperator l)) c

/-- Connectives and operands in turn from a place to another one. -/
inductive Tail (file : String) (source : List Char) (value : α → Node) :
    List (Connective × α) → Cursor → Cursor → Prop where
  | nil {c} :
    Tail file source value [] c c
  | cons {op a rest c₁ c₂ c₃ c₄} :
    Joint file source op c₁ c₂ →
    Operand file source (value a) c₂ c₃ →
    Tail file source value rest c₃ c₄ →
    Tail file source value ((op, a) :: rest) c₁ c₄

namespace Tail

variable {c d : Cursor} {as bs : List (Connective × α)}

lemma closed (h : Tail file source value as c d) (start : Closed c) : Closed d := by
  induction h with
  | nil => exact start
  | cons _ operand _ ih => exact ih operand.closed

/-- A tail can be cut. -/
lemma split (h : Tail file source value (as ++ bs) c d) :
    ∃ e, Tail file source value as c e ∧ Tail file source value bs e d := by
  induction as generalizing c with
  | nil => exact ⟨c, .nil, h⟩
  | cons p as ih =>
    cases h with
    | cons joint operand rest =>
      obtain ⟨e, before, after⟩ := ih rest
      exact ⟨e, .cons joint operand before, after⟩

end Tail

/-- At a place no connective of a level, or of a tighter one, follows. -/
def EndsLevel (k : Nat) (c : Cursor) : Prop :=
  ∀ l : Precedence, k ≤ l.tightness → Fails (.call (.binaryOperator l)) c

/-- An operand and its tail from `c` to `d` are read by `e` as a grouped operation. -/
def Groups (file : String) (source : List Char) (value : α → Node) (e : Peg.Expr Rule) (a : α)
    (rest : List (Connective × α)) (c d : Cursor) : Prop :=
  ∃ t : Operation α, t.first = a ∧ t.rest = rest ∧ t.Grouped ∧
    Denotes file source (.once e) c d [.node (t.map value).node]

/-- `e` reads every operand with a tail of connectives that bind at least as tightly as `k`. -/
def Reader (file : String) (source : List Char) (value : α → Node) (k : Nat) (e : Peg.Expr Rule) :
    Prop :=
  ∀ (a : α) (rest : List (Connective × α)) (c c' d : Cursor),
    Operand file source (value a) c c' →
    Tail file source value rest c' d →
    (∀ p ∈ rest, k ≤ p.1.level.tightness) →
    EndsLevel k d →
    Groups file source value e a rest c d

section Level

variable {l : Precedence} (tighter : Reader file source value (l.tightness + 1) (operand l))

/-- One more time of a level. -/
def turn (l : Precedence) : Peg.Expr Rule :=
  .seq (.call (.binaryOperator l)) (operand l)

/-- A list is cut before the first connective that binds no tighter than `l`. -/
lemma exists_cut (l : Precedence) (rest : List (Connective × α))
    (loose : ∀ p ∈ rest, l.tightness ≤ p.1.level.tightness) :
    ∃ as bs, rest = as ++ bs ∧ (∀ p ∈ as, l.tightness + 1 ≤ p.1.level.tightness) ∧
      ∀ p bs', bs = p :: bs' → p.1.level = l := by
  induction rest with
  | nil => exact ⟨[], [], rfl, by simp, by simp⟩
  | cons p rest ih =>
    have first := loose p List.mem_cons_self
    by_cases tight : l.tightness + 1 ≤ p.1.level.tightness
    · obtain ⟨as, bs, rfl, tight', head⟩ := ih fun q hq => loose q (List.mem_cons_of_mem p hq)
      exact ⟨p :: as, bs, rfl, List.forall_mem_cons.2 ⟨tight, tight'⟩, head⟩
    · refine ⟨[], p :: rest, rfl, by simp, fun q bs' e => ?_⟩
      cases e
      exact Precedence.tightness_injective (by omega)

include tighter in
/-- An operand of a level, up to the next connective of the level itself. -/
lemma exists_operand {a : α} {rest : List (Connective × α)} {c c' d : Cursor}
    (first : Operand file source (value a) c c') (tail : Tail file source value rest c' d)
    (loose : ∀ p ∈ rest, l.tightness ≤ p.1.level.tightness) (ends : EndsLevel l.tightness d) :
    ∃ as bs e, rest = as ++ bs ∧ Tail file source value bs e d ∧ Closed e ∧
      (∀ p bs', bs = p :: bs' → p.1.level = l) ∧
      (∀ p ∈ as, l.tightness + 1 ≤ p.1.level.tightness) ∧
      Groups file source value (operand l) a as c e := by
  obtain ⟨as, bs, rfl, tight, head⟩ := exists_cut l rest loose
  obtain ⟨e, before, after⟩ := tail.split
  refine ⟨as, bs, e, rfl, after, before.closed first.closed, head, tight, ?_⟩
  refine tighter _ _ _ _ _ first before tight fun l' le => ?_
  cases after with
  | nil => exact ends l' (by omega)
  | @cons op b _ _ _ _ _ joint _ _ =>
    have level := head _ _ rfl
    exact joint.tighter l' (by simp only at level; rw [level]; omega)

include tighter in
/-- The further times of a level join their operands to what was read before. -/
lemma exists_again {left : Operation α} {rest : List (Connective × α)} {c d : Cursor}
    (grouped : left.Grouped) (root : ∀ o ∈ left.root?, l.tightness ≤ o.level.tightness)
    (closed : Closed c) (tail : Tail file source value rest c d)
    (head : ∀ p bs, rest = p :: bs → p.1.level = l)
    (loose : ∀ p ∈ rest, l.tightness ≤ p.1.level.tightness) (ends : EndsLevel l.tightness d) :
    ∃ (t : Operation α) (ps : List Phrase), t.first = left.first ∧ t.rest = left.rest ++ rest ∧
      t.Grouped ∧ Denotes file source (.again (turn l)) c d ps ∧
      chain (left.map value).node ps = some (t.map value).node := by
  generalize length : rest.length = n
  induction n using Nat.strongRecOn generalizing left rest c with
  | ind n ih =>
    cases tail with
    | nil =>
      refine ⟨left, [], rfl, by simp, grouped, ?_, rfl⟩
      exact .againNone closed (.seq (ends l (Nat.le_refl _)))
    | @cons op b rest _ c₂ c₃ _ joint operand tail =>
      have level : op.level = l := head _ _ rfl
      obtain ⟨loose₁, loose⟩ := List.forall_mem_cons.1 loose
      obtain ⟨as, bs, e, rfl, tail', closed', head', tight, right, first', rest', grouped', reads⟩ :=
        exists_operand tighter operand tail loose ends
      -- The operand on the right binds tighter, since all its connectives do.
      have join : (Operation.join op left right).Grouped := by
        refine ⟨grouped, grouped', fun o ho => ?_, fun o ho => ?_⟩
        · rw [level]
          exact root o ho
        · obtain ⟨x, hx⟩ := Operation.exists_mem_of_root? ho
          rw [rest'] at hx
          rw [level]
          exact tight _ hx
      have root' : ∀ o ∈ (Operation.join op left right).root?, l.tightness ≤ o.level.tightness := by
        rintro o ⟨⟩
        exact Nat.le_of_eq (by rw [level])
      obtain ⟨t, ps, first, rest, all, more, made⟩ := ih bs.length
        (by simp only [← length, List.length_cons, List.length_append]; omega) join root' closed' tail'
        head' (fun p hp => loose p (List.mem_append_right as hp)) rfl
      obtain ⟨c', token, gap⟩ := joint.denotes
      rw [level] at token
      refine ⟨t, _, first, ?_, all, .againSome closed (.seq token gap reads) more, ?_⟩
      · rw [rest, Operation.rest, first', rest']
        simp
      · simp only [List.cons_append, List.nil_append, chain,
          Connective.combine_symbol, Option.bind_some]
        exact made

include tighter in
/-- A level reads what the tighter levels read, and joins it from left to right. -/
lemma reader_level : Reader file source value l.tightness (.call (.binaryExpression l)) := by
  intro a rest c c' d first tail loose ends
  obtain ⟨as, bs, e, rfl, tail', closed, head, tight, left, first', rest', grouped, reads⟩ :=
    exists_operand tighter first tail loose ends
  have root : ∀ o ∈ left.root?, l.tightness ≤ o.level.tightness := by
    intro o ho
    obtain ⟨x, hx⟩ := Operation.exists_mem_of_root? ho
    rw [rest'] at hx
    have := tight _ hx
    simp only at this
    omega
  obtain ⟨t, ps, first, rest, all, more, made⟩ := exists_again tighter grouped root closed tail' head
    (fun p hp => loose p (List.mem_append_right as hp)) ends
  refine ⟨t, first.trans first', by rw [rest, rest'], all, ?_⟩
  refine .call rfl (.seq reads closed (.starOfAgain closed more)) ?_
  simp [phrase?, binary, made]

end Level

/-- Nothing binds tighter than the last level: its operands stand alone. -/
lemma reader_last {l : Precedence} (last : l.next? = none) :
    Reader file source value (l.tightness + 1) (operand l) := by
  intro a rest c c' d first tail tight ends
  cases tail with
  | nil =>
    refine ⟨.operand a, rfl, rfl, trivial, ?_⟩
    rw [operand, last]
    exact first.denotes
  | @cons op =>
    have le := Precedence.tightness_le_of_last last op.level
    have lt := tight _ List.mem_cons_self
    simp only at lt
    omega

/-- Each level reads an operand with a tail of connectives that bind at least as tightly as its own. -/
lemma reader (l : Precedence) :
    Reader file source value l.tightness (.call (.binaryExpression l)) := by
  generalize room : 9 - l.tightness = n
  induction n using Nat.strongRecOn generalizing l with
  | ind n ih =>
    refine reader_level ?_
    cases next : l.next? with
    | none => exact reader_last next
    | some l' =>
      have tightness := Precedence.tightness_next next
      have bound : l'.tightness ≤ 9 := by cases l' <;> decide
      rw [operand, next, ← tightness]
      exact ih _ (by omega) l' rfl

/-- An operand and its tail are read as the grouped operation. -/
theorem Tail.grouped {a : α} {rest : List (Connective × α)} {c c' d : Cursor}
    (first : Operand file source (value a) c c') (tail : Tail file source value rest c' d)
    (ends : EndsLevel 0 d) :
    Groups file source value (.call (.binaryExpression .logicalOr)) a rest c d :=
  reader .logicalOr _ _ _ _ _ first tail (fun _ _ => Nat.zero_le _) ends

end ScriptTyping.Reading
