import ScriptTyping.Proofs.Reading.Places
import ScriptTyping.Proofs.Scan.Depth
import ScriptTyping.Proofs.Syntax.Term

/-!
# What printed terms are made of

A printed term is put together from words, numerals, operators, blanks, brackets and a few marks. What holds
of a text when one of these is put before it holds of a printed term (`Prefixes`): the term makes no arrow and
has no brace (`prefixes_plain`), and no slash or quote in it is taken for the beginning of anything
(`prefixes_legible`).
-/

namespace ScriptTyping
open Peg Grammar Reading

/-- What may go on an identifier is code for the search for brackets. -/
lemma Reading.isCode_of_isIdentPart {x : Char} (h : isIdentPart x = true) : Scan.isCode x = true := by
  have free : ∀ y ∈ ['/', '"', '\'', '\x60', ' ', '\t', '\n', '\x0c', '\r'] ++ Scan.beforePattern,
      isIdentPart y = false := List.all_iff_forall_prop.mp (by decide)
  cases code : Scan.isCode x with
  | true => rfl
  | false =>
    refine absurd h (Bool.eq_false_iff.1 (free x ?_))
    simp only [Scan.isCode, Scan.isQuote, Text.isAsciiBlank, Bool.and_eq_false_iff, Bool.not_eq_false',
      Bool.or_eq_true, beq_iff_eq, bne_eq_false_iff_eq, List.contains_eq_mem, decide_eq_true_eq] at code
    simp only [List.mem_append, List.mem_cons, List.not_mem_nil, or_false]
    grind

namespace Term

section Texts

variable {z : List Char}

lemma exists_cons_part (t : Term) (z : List Char) :
    ∃ x xs, t.part ++ z = x :: xs ∧ isSolid x = true := by
  rcases t.part_cases with ⟨n, -, text⟩ | text
  · obtain ⟨x, xs, first, start, -⟩ := n.exists_cons
    exact ⟨x, xs ++ z, by rw [text, first, List.cons_append],
      isSolid_of_isIdentPart (isIdentPart_of_isIdentStart start)⟩
  · exact ⟨'(', _, by rw [text]; rfl, by decide⟩

lemma exists_cons_body (t : Term) (z : List Char) :
    ∃ x xs, t.body ++ z = x :: xs ∧ isSolid x = true := by
  cases t
  case name n =>
    have text : (name n).part = n.text := body_name n
    rw [body_name, ← text]
    exact exists_cons_part (name n) z
  case numeral n =>
    obtain ⟨x, xs, text⟩ := List.exists_cons_of_ne_nil n.ne_nil
    have digit : x.isDigit = true := List.all_eq_true.1 n.digits x (by simp [text])
    have solid : ∀ x ∈ digits, isSolid x = true := List.all_iff_forall_prop.mp (by decide)
    exact ⟨x, xs ++ z, by rw [body_numeral, text, List.cons_append], solid x (mem_digits digit)⟩
  case unary op t =>
    obtain ⟨x, xs, text, solid⟩ : ∃ x xs, op.symbol.toList = x :: xs ∧ isSolid x = true := by
      cases op
      all_goals exact ⟨_, _, rfl, by decide⟩
    exact ⟨x, _, by rw [body_unary, text, List.cons_append, List.cons_append], solid⟩
  case array => exact ⟨'[', _, by rw [body_array]; rfl, by decide⟩
  case join =>
    rw [body_join, List.append_assoc]
    exact exists_cons_part _ _
  case conditional =>
    rw [body_conditional, List.append_assoc]
    exact exists_cons_part _ _
  case member =>
    rw [body_member, List.append_assoc]
    exact exists_cons_part _ _
  case call =>
    rw [body_call, List.append_assoc]
    exact exists_cons_part _ _

/-- A blank is no part of an operator, and ends one that is a word. -/
lemma follows_blank (op : Connective) (z : List Char) : Follows op (' ' :: z) := by
  refine ⟨' ', z, rfl, ?_⟩
  split
  · decide
  · decide

end Texts

/-- The marks that are followed by a part of a term. -/
def marks : List Char :=
  [' ', '(', '[', ',', '.', '?', ':']

/-- A class `P` of texts, and a class `L` of texts of which this is known only where an operand has ended
before them: what terms are made of leads from the one class to the other. -/
structure Prefixes (P L : List Char → Prop) : Prop where
  weaken : ∀ z, P z → L z
  word : ∀ (w : Word) z, L z → P (w.text ++ z)
  numeral : ∀ (n : Numeral) z, L z → P (n.text ++ z)
  ender : ∀ x ∈ [')', ']'], ∀ z, L z → P ([x] ++ z)
  mark : ∀ x ∈ marks, ∀ z, P z → P ([x] ++ z)
  blank : ∀ z, L z → L ([' '] ++ z)
  sign : ∀ (op : UnaryOperator) z, P z → P (op.symbol.toList ++ z)
  connective : ∀ (op : Connective) z, P z → L (op.symbol.toList ++ ([' '] ++ z))

namespace Prefixes

variable {P L : List Char → Prop} (h : Prefixes P L) {z : List Char}

include h

lemma part {t : Term} (body : ∀ z, L z → P (t.body ++ z)) (hz : L z) : P (t.part ++ z) := by
  rcases t.part_cases with ⟨n, -, text⟩ | text
  · rw [text]
    exact h.word n.toWord z hz
  · rw [text, List.append_assoc, List.append_assoc]
    exact h.mark '(' (by decide) _ (body _ (h.weaken _ (h.ender ')' (by decide) z hz)))

lemma separated {ts : List Term} (each : ∀ t ∈ ts, ∀ z, L z → P (t.part ++ z)) (hz : P z) :
    P (Term.separated (ts.map Term.part) ++ z) := by
  cases ts with
  | nil => exact hz
  | cons t ts =>
    obtain ⟨first, others⟩ := List.forall_mem_cons.1 each
    rw [List.map_cons, separated_cons, List.append_assoc]
    refine first _ (h.weaken _ ?_)
    clear first each
    induction ts with
    | nil => exact hz
    | cons u us ih =>
      obtain ⟨second, others⟩ := List.forall_mem_cons.1 others
      rw [List.map_cons, List.flatMap_cons, List.append_assoc, List.append_assoc, List.append_assoc]
      exact h.mark ',' (by decide) _ (h.mark ' ' (by decide) _ (second _ (h.weaken _ (ih others))))

/-- A term may be put before what may follow an operand. -/
theorem body (t : Term) : ∀ z, L z → P (t.body ++ z) := by
  have mark {x : Char} (hx : x ∈ marks) {z : List Char} (hz : P z) : P ([x] ++ z) := h.mark x hx z hz
  -- On the term: each piece is put in front of what follows, from the last to the first.
  induction t with
  | name n =>
    intro z hz
    rw [body_name]
    exact h.word n.toWord z hz
  | numeral n =>
    intro z hz
    rw [body_numeral]
    exact h.numeral n z hz
  | unary op t ih =>
    intro z hz
    rw [body_unary, List.append_assoc, List.append_assoc]
    exact h.sign op _ (mark (by decide) (h.part ih hz))
  | join op a b iha ihb =>
    intro z hz
    simp only [body_join, List.append_assoc]
    exact h.part iha (h.blank _ (h.connective op _ (h.part ihb hz)))
  | conditional a b c iha ihb ihc =>
    intro z hz
    simp only [body_conditional, List.append_assoc]
    have last := mark (x := ':') (by decide) (mark (x := ' ') (by decide) (h.part ihc hz))
    have second := h.part ihb (h.weaken _ (mark (x := ' ') (by decide) last))
    exact h.part iha (h.weaken _ (mark (by decide) (mark (by decide) (mark (by decide) second))))
  | array ts ih =>
    intro z hz
    simp only [body_array, List.append_assoc]
    exact mark (by decide) (h.separated (fun t ht z hz => h.part (ih t ht) hz)
      (h.ender ']' (by decide) z hz))
  | member t w ih =>
    intro z hz
    simp only [body_member, List.append_assoc]
    exact h.part ih (h.weaken _ (mark (by decide) (h.word w z hz)))
  | call f ts ihf ih =>
    intro z hz
    simp only [body_call, List.append_assoc]
    exact h.part ihf (h.weaken _ (mark (by decide) (h.separated (fun t ht z hz => h.part (ih t ht) hz)
      (h.ender ')' (by decide) z hz))))

lemma printed {t : Term} {text : List Char} (printed : text = t.body ∨ text = t.part) (hz : L z) :
    P (text ++ z) := by
  rcases printed with rfl | rfl
  · exact h.body t z hz
  · exact h.part (h.body t) hz

end Prefixes

lemma notMem_numeral {x : Char} (n : Numeral) (foreign : x.isDigit = false) : x ∉ n.text := by
  intro mem
  rw [List.all_eq_true.1 n.digits x mem] at foreign
  cases foreign

/-- What a term is made of makes no arrows and has no braces. -/
lemma prefixes_plain : Prefixes Plain Plain where
  weaken _ hz := hz
  word w _ hz := hz.append (w.notMem (by decide)) (.inl (w.notMem (by decide)))
  numeral n _ hz := hz.append (notMem_numeral n (by decide)) (.inl (notMem_numeral n (by decide)))
  ender x hx _ hz := by
    have told : ∀ x ∈ [')', ']'], x ≠ '\x7b' ∧ x ≠ '=' := by simp
    exact .cons (told x hx).1 (fun e => absurd e (told x hx).2) hz
  mark x hx _ hz := by
    have told : ∀ x ∈ marks, x ≠ '\x7b' ∧ x ≠ '=' := by simp [marks]
    exact .cons (told x hx).1 (fun e => absurd e (told x hx).2) hz
  blank _ hz := .cons (by decide) (fun e => absurd e (by decide)) hz
  sign op _ hz := by
    refine hz.append ?_ (.inl ?_)
    all_goals cases op <;> decide
  connective op z hz := 
    (follows_blank op z).plain (.cons (by decide) (fun e => absurd e (by decide)) hz)

/-- What a term is made of begins no comment, no quoted text and no regular expression. -/
lemma prefixes_legible : Prefixes (fun z => ∀ last, Scan.isLegible last z = true)
    (fun z => ∀ last, last ∉ Scan.beforePattern → Scan.isLegible last z = true) where
  weaken _ hz last _ := hz last
  word w z hz last := by
    obtain ⟨x, xs, text, -⟩ := w.exists_cons
    refine Scan.isLegible_append_of_code (by simp [text]) (fun x hx => ?_) hz
    exact isCode_of_isIdentPart (w.isIdentPart_of_mem hx)
  numeral n z hz last := by
    refine Scan.isLegible_append_of_code n.ne_nil (fun x hx => ?_) hz
    have told : ∀ x ∈ digits, Scan.isCode x = true := List.all_iff_forall_prop.mp (by decide)
    exact told x (mem_digits (List.all_eq_true.1 n.digits x hx))
  ender x hx z hz last := by
    have told : ∀ x ∈ [')', ']'], Scan.isCode x = true := List.all_iff_forall_prop.mp (by decide)
    exact Scan.isLegible_append_of_code (by simp) (by simpa using told x hx) hz
  mark x hx z hz last := by
    have told : ∀ x ∈ marks, x ≠ '/' ∧ Scan.isQuote x = false := List.all_iff_forall_prop.mp (by decide)
    exact Scan.isLegible_append (by simpa using told x hx) hz
  blank z hz last code := by simpa [Scan.isLegible, Scan.isQuote, Text.isAsciiBlank] using hz last code
  sign op z hz last := by
    refine Scan.isLegible_append ?_ hz
    cases op <;> exact List.all_iff_forall_prop.mp (by decide)
  connective op z hz last code := by
    have blank : ∀ last, Scan.isLegible last ([' '] ++ z) = true := fun last =>
      Scan.isLegible_append (by simp [Scan.isQuote]) hz
    -- Only the division could begin a pattern or a comment, and a blank stands behind it.
    by_cases division : op = .binary .div
    · subst division
      have rest := blank '/'
      simp_all [Connective.symbol, BinaryOperator.symbol, Scan.isLegible, Scan.isQuote, Text.isAsciiBlank]
    · have told : ∀ op ∈ Connective.all, op ≠ .binary .div →
          ∀ x ∈ op.symbol.toList, x ≠ '/' ∧ Scan.isQuote x = false := by
        simp only [← List.all_iff_forall_prop]
        decide
      exact Scan.isLegible_append (told op op.mem_all division) blank

end Term

end ScriptTyping
