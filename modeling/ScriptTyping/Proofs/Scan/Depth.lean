import Mathlib.Data.Bool.AllAny
import Mathlib.Tactic.Lemma
import ScriptTyping.Scan.Nesting

/-!
# Texts whose brackets are counted as they stand

The search for a bracket too many reads a text in rough lexemes, because brackets in comments, quoted
texts and regular expressions do not count. A text without opening brackets has none too many
(`excess?_eq_none`). In a text that begins no such lexeme it finds none exactly if the number of levels
that are open at once, its `peak`, stays within the limit (`excess?_eq_none_iff`).
-/

namespace ScriptTyping.Scan

/-- The characters that open a level. -/
def openers : List Char :=
  ['(', '[', '\x7b']

/-- The characters that close one. -/
def enders : List Char :=
  [')', ']', '\x7d']

section Suffixes

lemma dropLine_suffix (cs : List Char) : dropLine cs <:+ cs := by
  fun_induction dropLine cs with
  | case1 => exact List.suffix_refl _
  | case2 => exact List.suffix_refl _
  | case3 c cs _ ih => exact ih.trans (List.suffix_cons _ _)

lemma dropBlock_suffix (cs : List Char) : dropBlock cs <:+ cs := by
  fun_induction dropBlock cs with
  | case1 => exact List.suffix_refl _
  | case2 cs => exact (List.suffix_cons _ _).trans (List.suffix_cons _ _)
  | case3 c cs _ ih => exact ih.trans (List.suffix_cons _ _)

lemma dropQuoted_suffix (quote : Char) (cs : List Char) : dropQuoted quote cs <:+ cs := by
  fun_induction dropQuoted quote cs with
  | case1 => exact List.suffix_refl _
  | case2 => exact List.suffix_cons _ _
  | case3 => exact List.nil_suffix
  | case4 _ _ _ ih => exact ih.trans ((List.suffix_cons _ _).trans (List.suffix_cons _ _))
  | case5 _ _ _ _ ih => exact ih.trans (List.suffix_cons _ _)

lemma dropPattern_suffix (inBrackets : Bool) (cs : List Char) : dropPattern inBrackets cs <:+ cs := by
  fun_induction dropPattern inBrackets cs with
  | case1 => exact List.suffix_refl _
  | case2 => exact List.suffix_refl _
  | case3 => exact List.nil_suffix
  | case4 => rename_i ih; exact ih.trans ((List.suffix_cons _ _).trans (List.suffix_cons _ _))
  | case7 => exact List.suffix_cons _ _
  | _ => rename_i ih; exact ih.trans (List.suffix_cons _ _)

end Suffixes

variable {limit depth : Nat} {last : Char} {cs : List Char}

/-- No level is opened where no bracket opens one. -/
lemma excess?_eq_none (free : ∀ x ∈ cs, x ∉ openers) : excess? limit last depth cs = none := by
  have keep {c : Char} {ds es : List Char} (h : ds <:+ es) (free : ∀ x ∈ c :: es, x ∉ openers) :
      ∀ x ∈ ds, x ∉ openers := fun x hx => free x (List.mem_cons_of_mem c (h.mem hx))
  fun_induction excess? limit last depth cs with
  | case1 => rfl
  | case2 _ _ _ _ _ ih => exact ih (keep (dropLine_suffix _) free)
  | case3 _ _ _ _ _ _ ih =>
    exact ih (keep ((dropBlock_suffix _).trans (List.tail_suffix _)) free)
  | case4 _ _ _ _ _ _ _ ih => exact ih (keep (dropPattern_suffix _ _) free)
  | case5 _ _ _ _ _ _ _ _ ih => exact ih (keep (dropQuoted_suffix _ _) free)
  | case6 _ _ _ _ _ _ _ _ opens => exact absurd opens (free _ List.mem_cons_self)
  | case7 _ _ _ _ _ _ _ _ opens => exact absurd opens (free _ List.mem_cons_self)
  | case8 _ _ _ _ _ _ _ _ _ _ ih => exact ih (keep (List.suffix_refl _) free)
  | case9 _ _ _ _ _ _ _ _ _ _ ih => exact ih (keep (List.suffix_refl _) free)

/-- The greatest number of levels that are open at once in a text, when `depth` levels are open before
it. -/
def peak (depth : Nat) : List Char → Nat
  | [] => depth
  | c :: cs =>
    if c ∈ openers then peak (depth + 1) cs
    else if c ∈ enders then max depth (peak (depth - 1) cs)
    else peak depth cs

/-- Whether a text begins no comment, no quoted text and no regular expression, when `last` is the last
character of code before it. -/
def isLegible (last : Char) : List Char → Bool
  | [] => true
  | c :: cs =>
    !isQuote c && (c != '/' || (last ∉ beforePattern && cs.head? ∉ [some '/', some '*'])) &&
      isLegible (if Text.isAsciiBlank c then last else c) cs

lemma le_peak (depth : Nat) (cs : List Char) : depth ≤ peak depth cs := by
  induction cs generalizing depth with
  | nil => exact Nat.le_refl _
  | cons c cs ih =>
    have := ih (depth + 1)
    have := ih depth
    rw [peak]
    split
    · omega
    · split
      · exact Nat.le_max_left _ _
      · assumption

/-- What stands before a text that is legible after it, and has no quotes and no slashes. -/
lemma isLegible_append {ds : List Char} (free : ∀ x ∈ cs, x ≠ '/' ∧ isQuote x = false)
    (legible : ∀ last, isLegible last ds = true) : isLegible last (cs ++ ds) = true := by
  induction cs generalizing last with
  | nil => exact legible last
  | cons x xs ih =>
    obtain ⟨slash, quote⟩ := free x List.mem_cons_self
    have rest : isLegible (if Text.isAsciiBlank x then last else x) (xs ++ ds) = true :=
      ih fun y hy => free y (List.mem_cons_of_mem x hy)
    simp [isLegible, quote, slash, rest]

/-- A character that is neither blank nor one of those before a regular expression. -/
def isCode (x : Char) : Bool :=
  x != '/' && !isQuote x && !Text.isAsciiBlank x && !beforePattern.contains x

/-- After code a slash is a division. -/
lemma isLegible_append_of_code {ds : List Char} (ne : cs ≠ []) (code : ∀ x ∈ cs, isCode x = true)
    (legible : ∀ last, last ∉ beforePattern → isLegible last ds = true) :
    isLegible last (cs ++ ds) = true := by
  induction cs generalizing last with
  | nil => exact absurd rfl ne
  | cons x xs ih =>
    have here := code x List.mem_cons_self
    simp only [isCode, Bool.and_eq_true, bne_iff_ne, Bool.not_eq_true', List.contains_eq_mem,
      decide_eq_false_iff_not] at here
    obtain ⟨⟨⟨slash, quote⟩, solid⟩, notBefore⟩ := here
    have rest : isLegible x (xs ++ ds) = true := by
      cases xs with
      | nil => exact legible x notBefore
      | cons y ys =>
        exact ih (List.cons_ne_nil y ys) fun z hz => code z (List.mem_cons_of_mem x hz)
    simp [isLegible, quote, slash, solid, rest]

/-- In a legible text each character counts for itself. -/
lemma excess?_cons {c : Char} (legible : isLegible last (c :: cs) = true) :
    excess? limit last depth (c :: cs) =
      if c ∈ openers then
        if limit < depth + 1 then some (c :: cs) else excess? limit c (depth + 1) cs
      else if c ∈ enders then excess? limit c (depth - 1) cs
      else excess? limit (if Text.isAsciiBlank c then last else c) depth cs := by
  simp only [isLegible, Bool.and_eq_true, Bool.not_eq_true', Bool.or_eq_true, bne_iff_ne,
    decide_eq_true_eq] at legible
  obtain ⟨⟨quote, slash⟩, -⟩ := legible
  have division (h : c = '/') := slash.resolve_left fun ne => ne h
  have line : ¬(c = '/' ∧ cs.head? = some '/') := fun h => (division h.1).2 (by simp [h.2])
  have block : ¬(c = '/' ∧ cs.head? = some '*') := fun h => (division h.1).2 (by simp [h.2])
  have pattern : ¬(c = '/' ∧ last ∈ beforePattern) := fun h => (division h.1).1 h.2
  rw [excess?, if_neg line, if_neg block, if_neg pattern, if_neg (by simp [quote])]
  rfl

/-- A text that opens no level has no peak of its own. -/
lemma peak_of_free (free : ∀ x ∈ cs, x ∉ openers) : peak depth cs = depth := by
  induction cs generalizing depth with
  | nil => rfl
  | cons c cs ih =>
    have rest {d : Nat} : peak d cs = d := ih fun x hx => free x (List.mem_cons_of_mem c hx)
    rw [peak, if_neg (free c List.mem_cons_self), rest, rest]
    split
    · exact Nat.max_eq_left (Nat.sub_le depth 1)
    · rfl

lemma peak_append_of_free {ds : List Char} (free : ∀ x ∈ ds, x ∉ openers) :
    peak depth (cs ++ ds) = peak depth cs := by
  induction cs generalizing depth with
  | nil => exact peak_of_free free
  | cons c cs ih => simp only [List.cons_append, peak, ih]

lemma peak_append_of_mere {ds : List Char} (free : ∀ x ∈ cs, x ∉ openers ∧ x ∉ enders) :
    peak depth (cs ++ ds) = peak depth ds := by
  induction cs with
  | nil => rfl
  | cons c cs ih =>
    obtain ⟨opens, closes⟩ := free c List.mem_cons_self
    rw [List.cons_append, peak, if_neg opens, if_neg closes]
    exact ih fun x hx => free x (List.mem_cons_of_mem c hx)

/-- In a legible text a level is opened too many exactly if too many are open at once. -/
theorem excess?_eq_none_iff (legible : isLegible last cs = true) (within : depth ≤ limit) :
    excess? limit last depth cs = none ↔ peak depth cs ≤ limit := by
  induction cs generalizing last depth with
  | nil => simpa [excess?, peak] using within
  | cons c cs ih =>
    have solid : ∀ x ∈ openers ++ enders, Text.isAsciiBlank x = false :=
      List.all_iff_forall_prop.mp (by decide)
    have rest := (Bool.and_eq_true_iff.1 legible).2
    rw [excess?_cons legible, peak]
    by_cases opens : c ∈ openers
    · rw [solid c (List.mem_append_left _ opens)] at rest
      rw [if_pos opens, if_pos opens]
      split
      · have := le_peak (depth + 1) cs
        simp only [reduceCtorEq, false_iff]
        omega
      · exact ih rest (by omega)
    · rw [if_neg opens, if_neg opens]
      by_cases ends : c ∈ enders
      · rw [solid c (List.mem_append_right _ ends)] at rest
        have closed : excess? limit c (depth - 1) cs = none ↔ peak (depth - 1) cs ≤ limit :=
          ih rest (by omega)
        rw [if_pos ends, if_pos ends, closed]
        omega
      · rw [if_neg ends, if_neg ends]
        exact ih rest within

end ScriptTyping.Scan
