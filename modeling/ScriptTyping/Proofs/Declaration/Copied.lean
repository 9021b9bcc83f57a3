import ScriptTyping.Proofs.Declaration.Bindings
import ScriptTyping.Proofs.Reading.Covering

/-!
# Values that are copied

A first value of a form that is copied is recorded with a text of its own, and any other is recorded
without one. The text is cut out of the source by the span of the node, so it ends where the scan for
blanks and comments at the end of its match stops (`exists_own`, `sourceText?_of_isRead`).
-/

namespace ScriptTyping.Reading
open Peg Peg.Expr

variable {file : String} {source : List Char}

section Provenance

variable {e : Extent} {parts : List Phrase} {i : Node}

lemma not_isCopied_combine {w : String} {left right n : Node} (h : combine w left right = some n) :
    n.isCopied = false := by
  unfold combine at h
  split at h
  · cases h
    rfl
  · obtain ⟨op, _, rfl⟩ := Option.map_eq_some_iff.1 h
    rfl

lemma chain_eq_or {left n : Node} (h : chain left parts = some n) :
    n = left ∨ n.isCopied = false := by
  fun_induction chain left parts with
  | case1 left =>
    cases h
    exact .inl rfl
  | case2 left operator right rest ih =>
    obtain ⟨joined, hjoined, h⟩ := Option.bind_eq_some_iff.1 h
    rcases ih joined h with rfl | plain
    · exact .inr (not_isCopied_combine hjoined)
    · exact .inr plain
  | case3 => cases h

lemma accesses_eq_or {object n : Node} (h : accesses object parts = some n) :
    n = object ∨ n.isCopied = false := by
  fun_induction accesses object parts with
  | case1 object =>
    cases h
    exact .inl rfl
  | case2 object a rest ih =>
    rcases ih h with rfl | plain
    · obtain ⟨kind, _, _⟩ := a
      right
      cases kind <;> rfl
    · exact .inr plain
  | case3 object operator span rest ih =>
    rcases ih h with rfl | plain
    · exact .inr rfl
    · exact .inr plain
  | case4 => cases h

/-- What is copied of a rule that may stand for its first part is of its own making or that part. -/
lemma first_of_wrapper {r : Rule} (wrapper : isWrapper r = true)
    (h : phrase? r e parts = some (.node i)) (copied : i.isCopied = true) :
    (∃ f, i = e.node f) ∨ ∃ rest, parts = .node i :: rest := by
  -- Each of the rules makes a form of its own that is not copied, or hands on its only part.
  cases r
  case expression =>
    obtain ⟨ns, hns, h⟩ := Option.bind_eq_some_iff.1 h
    rw [map_of_nodes? hns]
    split at h
    all_goals cases h
    · exact .inr ⟨[], rfl⟩
    · cases copied
  case assignmentExpression =>
    change assignment e parts = _ at h
    unfold assignment at h
    split at h
    all_goals cases h
    · exact .inr ⟨[], rfl⟩
    · cases copied
  case conditionalExpression =>
    change conditional e parts = _ at h
    unfold conditional at h
    split at h
    all_goals cases h
    · exact .inr ⟨[], rfl⟩
    · cases copied
  case binaryExpression =>
    change binary parts = _ at h
    unfold binary at h
    split at h
    · rename_i left rest
      obtain ⟨n, hn, e⟩ := Option.map_eq_some_iff.1 h
      cases e
      rcases chain_eq_or hn with rfl | plain
      · exact .inr ⟨rest, rfl⟩
      · rw [copied] at plain
        cases plain
    · cases h
  case unaryExpression =>
    change unary e parts = _ at h
    unfold unary at h
    split at h
    · cases h
      exact .inr ⟨[], rfl⟩
    · obtain ⟨f, _, e⟩ := Option.map_eq_some_iff.1 h
      cases e
      exact .inl ⟨f, rfl⟩
    · cases h
  case postfixExpression =>
    change accessed parts = _ at h
    unfold accessed at h
    split at h
    · rename_i object rest
      obtain ⟨n, hn, e⟩ := Option.map_eq_some_iff.1 h
      cases e
      rcases accesses_eq_or hn with rfl | plain
      · exact .inr ⟨rest, rfl⟩
      · rw [copied] at plain
        cases plain
    · cases h
  case parenthesizedExpression =>
    change phrase?.only parts = _ at h
    unfold phrase?.only at h
    split at h
    all_goals cases h
    exact .inr ⟨[], rfl⟩
  all_goals cases wrapper

end Provenance

/-- What is copied of a match of an expression is what some match in it stands for, as a node of its own
making. -/
lemma exists_own {t : Peg.Tree Rule} {i : Node} (h : t.IsRead language source)
    (expression : isWrapper t.rule = true ∨ isOperand t.rule = true)
    (made : assemble file source t = .ok (.node i)) (copied : i.isCopied = true) :
    ∃ u : Peg.Tree Rule, u.Under t ∧ assemble file source u = .ok (.node i) ∧
      ∃ f, i = (extent file source u).node f := by
  refine Tree.IsRead.induction
    (P := fun t => isWrapper t.rule = true ∨ isOperand t.rule = true →
      assemble file source t = .ok (.node i) → ∃ u : Peg.Tree Rule, u.Under t ∧
        assemble file source u = .ok (.node i) ∧ ∃ f, i = (extent file source u).node f)
    (fun t h ih expression made => ?_) t h expression made
  obtain ⟨value, each, found⟩ := phrase?_of_assemble made
  rcases expression with wrapper | operand
  · rcases first_of_wrapper wrapper found copied with own | ⟨rest, parts⟩
    · exact ⟨t, .self, made, own⟩
    · obtain ⟨u, us, below, here, -⟩ := List.map_eq_cons_iff.1 parts
      have hu : u ∈ t.children := below ▸ List.mem_cons_self
      have first := each u hu
      rw [here] at first
      have fits := fits_of_assemble (h.children u hu) first
      have inner : isWrapper u.rule = true ∨ isOperand u.rule = true := by
        rcases first_rule h wrapper below with wrapper | operand | operator
        · exact .inl wrapper
        · exact .inr operand
        · rw [operator] at fits
          obtain ⟨_, e, _⟩ := fits
          cases e
      obtain ⟨v, under, own⟩ := ih u hu inner first
      exact ⟨v, .inside hu under, own⟩
  · exact ⟨t, .self, made, own_of_operand operand found⟩

/-- The text of a node that covers a match is the text of the match without the blanks and comments
that the scan finds at its end. -/
lemma sourceText?_of_isRead {t : Peg.Tree Rule} {content : String} (h : t.IsRead language content.toList)
    (f : Form Node) :
    ((extent file content.toList t).node f).sourceText? content =
      some (String.ofList (Scan.trimTrailing t.text)) := by
  have slice : Text.slice? content.toList (offsetAt content.toList t.start)
      (offsetAt content.toList (t.start + (Scan.trimTrailing t.text).length)) = _ :=
    slice?_offsetAt (Nat.le_add_right _ _)
  rw [stretch_of_isRead h] at slice
  exact congrArg (Option.map String.ofList) slice

/-- The first value of a declarator is what the match of an expression stands for. -/
lemma init_of_declarator {u : Peg.Tree Rule} {d id i : Node} (h : u.IsRead language source)
    (rule : u.rule = .variableDeclarator) (made : assemble file source u = .ok (.node d))
    (form : d.form = .variableDeclarator id (some i)) :
    ∃ t ∈ u.children, t.rule = .assignmentExpression ∧ assemble file source t = .ok (.node i) := by
  obtain ⟨value, each, found⟩ := phrase?_of_assemble made
  have left : Yields language (fun r u => u.rule = r) (Grammar.body u.rule) u.children :=
    h.yields (by rw [rule]; exact .inl rfl)
  rw [rule] at found left
  change variableDeclarator _ _ = _ at found
  unfold variableDeclarator at found
  split at found
  · cases found
    cases form
  · rename_i parts
    cases found
    cases form
    obtain ⟨a, ts, below, _, rest⟩ := List.map_eq_cons_iff.1 parts
    obtain ⟨b, _, rfl, here, rest⟩ := List.map_eq_cons_iff.1 rest
    obtain rfl := List.map_eq_nil_iff.1 rest
    rw [below] at left
    have hb : b ∈ u.children := by simp [below]
    refine ⟨b, hb, ?_, here ▸ each b hb⟩
    simp [Grammar.body, Grammar.bindingTarget, oneOf, token] at left
    rcases left with ⟨_, rule⟩ | ⟨_, rule⟩ | ⟨_, rule⟩
    all_goals exact rule
  · cases found

/-- A candidate is what the match of a declarator stands for. -/
lemma exists_declarator_of_candidate {n : Node} {lo hi : Nat} {c : Candidate}
    (h : Sited file source lo hi n.declarations) (hc : c ∈ n.candidates) :
    ∃ (u : Peg.Tree Rule) (d id : Node), u.IsRead language source ∧ u.rule = .variableDeclarator ∧
      assemble file source u = .ok (.node d) ∧ d.form = .variableDeclarator id c.init ∧
      id.name? = some c.name := by
  rw [Node.candidates_eq] at hc
  obtain ⟨m, hm, hc⟩ := List.mem_flatMap.1 hc
  unfold Node.ownCandidates at hc
  split at hc
  · rename_i kind ds form
    obtain ⟨d, hd, hc⟩ := List.mem_flatMap.1 hc
    obtain ⟨id, form', named⟩ := Node.form_of_candidate? (Option.mem_toList.1 hc)
    obtain ⟨_, us, value, _, _, each, nodes⟩ := (h.declared m hm).declarators form
    obtain ⟨u, hu, here⟩ := List.mem_map.1 (nodes ▸ List.mem_map_of_mem hd)
    obtain ⟨read, rule, made⟩ := each u hu
    exact ⟨u, d, id, read, rule, here ▸ made, form', named⟩
  · cases hc

end ScriptTyping.Reading
