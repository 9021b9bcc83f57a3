import ScriptTyping.Proofs.Declaration.Routines
import ScriptTyping.Proofs.Reading.Stops

/-!
# Texts that are cut out of a script

The body of a function and the value of a variable are told as texts of the script. As long as the scan for
the end of a text takes each token for what it is, a body reaches from the start of its first statement to
the last token of its last (`body_of_parse`), and a value is the text of the tokens of its expression
(`value_of_parse`). A slash and a star in a class of characters are taken for the beginning of a comment;
then both end inside a token.
-/

namespace ScriptTyping.Reading
open Peg

variable {file : String} {source : List Char} {t : Peg.Tree Rule} {n : Node}

/-- The first value of a candidate is what the match of an expression in the script stands for. -/
lemma exists_init (read : t.IsRead language source) (made : assemble file source t = .ok (.node n))
    {c : Candidate} (hc : c ∈ n.candidates) {i : Node} (init : c.init = some i) :
    ∃ u : Peg.Tree Rule, u.Under t ∧ u.rule = .assignmentExpression ∧
      assemble file source u = .ok (.node i) := by
  rw [Node.candidates_eq] at hc
  obtain ⟨m, hm, hc⟩ := List.mem_flatMap.1 hc
  rw [← declarations_node] at hm
  obtain ⟨u, below, declares, madeU⟩ := (mem_declarations_iff_exists read made).1 hm
  unfold Node.ownCandidates at hc
  split at hc
  · rename_i kind ds form
    obtain ⟨d, hd, hc⟩ := List.mem_flatMap.1 hc
    obtain ⟨id, form', -⟩ := Node.form_of_candidate? (Option.mem_toList.1 hc)
    rw [init] at form'
    obtain ⟨us, value, -, each, nodes⟩ := exists_declarators (read.under below) declares madeU form
    obtain ⟨v, hv, here⟩ := List.mem_map.1 (nodes ▸ List.mem_map_of_mem hd)
    obtain ⟨child, rule, madeV⟩ := each v hv
    have belowV : v.Under t := .trans (.inside child .self) below
    obtain ⟨w, hw, expression, madeW⟩ :=
      init_of_declarator (read.under belowV) rule (here ▸ madeV) form'
    exact ⟨w, .trans (.inside hw .self) belowV, expression, madeW⟩
  · cases hc

/-- The body of a function that a match declares reaches from the start of its first statement to where the
scan for the end stops in the match of its last. -/
lemma bodyText?_of_declaration {content : String} {d x y : Node} {f : Function Node}
    (read : t.IsRead language content.toList) (declares : isDeclaration t.rule = true)
    (made : assemble file content.toList t = .ok (.node d)) (form : d.form = .functionDeclaration f)
    (first : f.body.statements.head? = some x) (last : f.body.statements.getLast? = some y) :
    ∃ u v : Peg.Tree Rule, u.Under t ∧ v.Under t ∧ assemble file content.toList u = .ok (.node x) ∧
      assemble file content.toList v = .ok (.node y) ∧
      (d.routine content f).bodyText? content =
        some (String.ofList (stretch content.toList u.start (ending v))) := by
  obtain ⟨b, hb, rule, madeB⟩ := exists_body read declares made form
  obtain ⟨u, hu, v, hv, madeU, madeV, le, range⟩ :=
    range?_of_children (read.children b hb) rule madeB first last
  refine ⟨u, v, .inside hb (.inside hu .self), .inside hb (.inside hv .self), madeU, madeV, ?_⟩
  have order : u.start ≤ ending v := by
    rw [ending]
    omega
  change f.body.range?.bind _ = _
  rw [range]
  exact congrArg (Option.map String.ofList) (slice?_offsetAt order)

end ScriptTyping.Reading

namespace ScriptTyping.Script
open Peg Reading

/-- A function is recorded of each declaration of one, and it has a body exactly when there are statements in
it. If the scan for the end of a text takes each token for what it is, the text of the body begins where the
first statement does and ends with the last token of the last. -/
theorem body_of_parse {s : Script} {n : Node} (h : s.parse = .ok n) :
    ∃ (t : Peg.Tree Rule) (ts : List (Token Rule)), s.match? = .ok t ∧
      t.Lexed language s.content.toList ts ∧ Token.textOf ts = s.content.toList ∧
      ∀ r ∈ (collect n s.content).routines,
        ∃ d ∈ n.declarations, ∃ f, d.form = .functionDeclaration f ∧ r = d.routine s.content f ∧
          (f.body.statements = [] → r.bodyText? s.content = none) ∧
          (AllSeen [] ts → ∀ x y, f.body.statements.head? = some x →
            f.body.statements.getLast? = some y →
            ∃ (u v : Peg.Tree Rule) (us : List (Token Rule)), u.Under t ∧ v.Under t ∧
              assemble s.name s.content.toList u = .ok (.node x) ∧
              assemble s.name s.content.toList v = .ok (.node y) ∧
              v.Lexed language s.content.toList us ∧
              r.bodyText? s.content = some (String.ofList (stretch s.content.toList u.start
                (v.start + (Token.textOf (Token.code us)).length)))) := by
  obtain ⟨t, ts, matched, made, read, lexed, text, ends⟩ := tokens_of_parse h
  refine ⟨t, ts, matched, lexed, text, fun r hr => ?_⟩
  obtain ⟨d, hd, f, form, rfl⟩ := exists_declaration hr
  refine ⟨d, hd, f, form, rfl, fun none => ?_, fun seen x y first last => ?_⟩
  · simp [Node.routine, Routine.bodyText?, Block.range?, none, Span.join?]
  · rw [← declarations_node] at hd
    obtain ⟨u, below, declares, madeU⟩ := (mem_declarations_iff_exists read made).1 hd
    obtain ⟨v, w, belowV, belowW, madeV, madeW, body⟩ :=
      bodyText?_of_declaration (read.under below) declares madeU form first last
    obtain ⟨⟨us, lexedW, trimmed⟩, -⟩ := ends seen w (belowW.trans below)
    refine ⟨v, w, us, belowV.trans below, belowW.trans below, madeV, madeW, lexedW, ?_⟩
    rw [body, ending, trimmed]

/-- A slash and a star in a class of characters are taken for the beginning of a comment, so the body
ends inside its only token but one. -/
example : ((ofSource "a.js" "function f() \x7b return /[/*]/; \x7d").parse.toOption.any fun n =>
    (collect n "function f() \x7b return /[/*]/; \x7d").routines.any fun r =>
      r.bodyText? "function f() \x7b return /[/*]/; \x7d" = some "return /[") = true := by
  decide +kernel

/-- A variable has a value exactly when its first value is of a form that is copied. If the scan for the end of
a text takes each token for what it is, the value is the text of the tokens of a match that stands for the
first value. -/
theorem value_of_parse {s : Script} {n : Node} (h : s.parse = .ok n) :
    ∃ (t : Peg.Tree Rule) (ts : List (Token Rule)), s.match? = .ok t ∧
      t.Lexed language s.content.toList ts ∧ Token.textOf ts = s.content.toList ∧
      ∀ v ∈ (collect n s.content).bindings, ∃ c ∈ n.candidates, v = c.recorded s.content ∧
        ((∀ i, c.init = some i → i.isCopied = false) → v.value = none) ∧
        ∀ i, c.init = some i → i.isCopied = true → v.value.isSome ∧
          (AllSeen [] ts → ∃ (u : Peg.Tree Rule) (us : List (Token Rule)), u.Under t ∧
            assemble s.name s.content.toList u = .ok (.node i) ∧
            u.Lexed language s.content.toList us ∧
            v.value = some (String.ofList (Token.textOf (Token.code us)))) := by
  obtain ⟨t, ts, matched, made, read, lexed, text, ends⟩ := tokens_of_parse h
  refine ⟨t, ts, matched, lexed, text, fun v hv => ?_⟩
  rw [bindings_collect] at hv
  obtain ⟨c, hc, rfl⟩ := List.mem_map.1 hv
  have hc := mem_of_mem_firsts hc
  refine ⟨c, hc, rfl, fun plain => ?_, fun i init copied => ?_⟩
  · rw [Candidate.recorded]
    cases init : c.init with
    | none => rfl
    | some i => simp [plain i init]
  · obtain ⟨u, below, rule, madeU⟩ := exists_init read made hc init
    obtain ⟨w, belowW, madeW, f, own⟩ :=
      exists_own (read.under below) (.inl (by rw [rule]; rfl)) madeU copied
    have under : w.Under t := belowW.trans below
    have value : (c.recorded s.content).value = some (String.ofList (Scan.trimTrailing w.text)) := by
      rw [Candidate.recorded, init, Option.filter_some, if_pos copied]
      exact own ▸ sourceText?_of_isRead (read.under under) f
    refine ⟨by rw [value]; rfl, fun seen => ?_⟩
    obtain ⟨⟨us, lexedW, trimmed⟩, -⟩ := ends seen w under
    exact ⟨w, us, under, madeW, lexedW, by rw [value, trimmed]⟩

/-- A slash and a star in a class of characters are taken for the beginning of a comment, so the value
that is copied is no expression. -/
example : ((ofSource "a.js" "let r = /[/*]/;").parse.toOption.any fun n =>
    (collect n "let r = /[/*]/;").bindings.any fun v => v.value = some "/[") = true := by
  decide +kernel

end ScriptTyping.Script
