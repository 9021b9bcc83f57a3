import ScriptTyping.Proofs.Scan.Trailing

/-!
# What the two scans pass over

The search for a bracket too many and the scan for blanks and comments at the end read the same rough
lexemes, but only the first knows regular expressions. Here is what each makes of a text of blanks and
comments (`Spacing`), of a text without slashes, quotes and brackets, and of a quoted text, with whatever
stands behind it.
-/

namespace ScriptTyping.Scan

/-- Blanks and comments, with the given text behind them. A line comment ends at a line feed or at the end
of all. -/
inductive Spacing (rest : List Char) : List Char → Prop where
  | nil : Spacing rest []
  | blank {c : Char} {cs : List Char} : Text.isAsciiBlank c = true → Spacing rest cs → Spacing rest (c :: cs)
  | line {note cs : List Char} : '\n' ∉ note → Follows (cs ++ rest) ['\n'] → Spacing rest cs →
      Spacing rest ('/' :: '/' :: (note ++ cs))
  | block {note cs : List Char} : ¬ ['*', '/'] <:+: note ++ ['*'] → Spacing rest cs →
      Spacing rest ('/' :: '*' :: (note ++ '*' :: '/' :: cs))

/-- The characters that stand for themselves in either scan, and are no brackets. -/
def isLone (x : Char) : Bool :=
  x != '/' && x != '\\' && !isQuote x && !(openers ++ enders).contains x

/-- A text of such characters that ends in code, if it is not empty. -/
structure Lone (cs : List Char) : Prop where
  lone : ∀ x ∈ cs, isLone x = true
  solid : ∀ x ∈ cs.getLast?, Text.isAsciiBlank x = false

/-- The last character of code, where `last` is the one before a text without comments. -/
def codeAfter (last : Char) (cs : List Char) : Char :=
  cs.foldl (fun last x => if Text.isAsciiBlank x then last else x) last

variable {limit depth : Nat} {last c : Char} {cs es rest : List Char}

lemma codeAfter_append_solid (x : Char) (solid : Text.isAsciiBlank x = false) :
    codeAfter last (cs ++ [x]) = x := by
  rw [codeAfter, List.foldl_append, List.foldl_cons, List.foldl_nil, solid, if_neg Bool.false_ne_true]

/-- What a lone character is not. -/
lemma isLone_spec (h : isLone c = true) :
    c ≠ '/' ∧ c ≠ '\\' ∧ isQuote c = false ∧ c ∉ openers ∧ c ∉ enders := by
  simpa [isLone, and_assoc] using h

/-- A blank is lone. -/
lemma isLone_of_isAsciiBlank (h : Text.isAsciiBlank c = true) : isLone c = true := by
  simp only [Text.isAsciiBlank, Bool.or_eq_true, beq_iff_eq] at h
  rcases h with (((rfl | rfl) | rfl) | rfl) | rfl
  all_goals decide

namespace Lone

variable {ds : List Char}

lemma nil : Lone [] :=
  ⟨by simp, by simp⟩

/-- Characters that are no blanks. -/
lemma of_forall (h : ∀ x ∈ cs, isLone x = true ∧ Text.isAsciiBlank x = false) : Lone cs :=
  ⟨fun x hx => (h x hx).1, fun x hx => (h x (List.mem_of_getLast? hx)).2⟩

/-- Any lone characters before a text that is not empty. -/
lemma behind (before : ∀ x ∈ cs, isLone x = true) (ne : ds ≠ []) (h : Lone ds) : Lone (cs ++ ds) := by
  refine ⟨List.forall_mem_append.2 ⟨before, h.lone⟩, fun x hx => h.solid x ?_⟩
  have last := List.getLast?_eq_some_getLast ne
  rwa [List.getLast?_append, last, Option.some_or, ← last] at hx

lemma append (h : Lone cs) (h' : Lone ds) : Lone (cs ++ ds) := by
  cases ds with
  | nil => rwa [List.append_nil]
  | cons d ds => exact behind h.lone (List.cons_ne_nil d ds) h'

end Lone

/-- The last character of a lone text is the last one of code. -/
lemma Lone.codeAfter (h : Lone cs) : codeAfter last cs = cs.getLast?.getD last := by
  rcases List.eq_nil_or_concat cs with rfl | ⟨front, x, rfl⟩
  · rfl
  · have solid := h.solid x (by simp)
    rw [List.concat_eq_append, codeAfter_append_solid x solid, List.getLast?_concat, Option.getD_some]

namespace Spacing

/-- It does not depend on what stands behind, but on how this begins. -/
lemma follows (h : Spacing rest cs) (alike : Follows es rest) : Spacing es cs := by
  induction h with
  | nil => exact .nil
  | blank blank _ ih => exact .blank blank ih
  | @line note cs free ends _ ih =>
    refine .line free ?_ ih
    cases cs with
    | nil => exact fun x hx => ends x (alike x hx)
    | cons c cs => exact ends
  | block closed _ ih => exact .block closed ih

end Spacing

section Excess

/-- A lone character changes at most what the last character of code is. -/
lemma excess?_lone (lone : isLone c = true) : excess? limit last depth (c :: cs) =
    excess? limit (if Text.isAsciiBlank c then last else c) depth cs := by
  obtain ⟨slash, -, quote, opens, closes⟩ := isLone_spec lone
  rw [excess?, if_neg fun h => slash h.1, if_neg fun h => slash h.1, if_neg fun h => slash h.1, quote,
    if_neg Bool.false_ne_true]
  rw [if_neg (show c ∉ ['(', '[', '\x7b'] from opens), if_neg (show c ∉ [')', ']', '\x7d'] from closes)]

lemma excess?_lones (lone : ∀ x ∈ cs, isLone x = true) : excess? limit last depth (cs ++ rest) =
    excess? limit (codeAfter last cs) depth rest := by
  induction cs generalizing last with
  | nil => rfl
  | cons x xs ih =>
    rw [List.cons_append, excess?_lone (lone x List.mem_cons_self),
      ih fun y hy => lone y (List.mem_cons_of_mem x hy)]
    rfl

/-- Blanks and comments are passed over. -/
lemma Spacing.excess? (h : Spacing rest cs) :
    Scan.excess? limit last depth (cs ++ rest) = Scan.excess? limit last depth rest := by
  induction h with
  | nil => rfl
  | @blank c cs blank _ ih =>
    rw [List.cons_append, excess?_lone (isLone_of_isAsciiBlank blank), blank, if_pos rfl, ih]
  | @line note cs free ends _ ih =>
    have stop : dropLine ('/' :: (note ++ (cs ++ rest))) = cs ++ rest :=
      (dropLine_append ('/' :: note) (by simpa using free)).trans (dropLine_of_follows ends)
    rw [List.cons_append, List.cons_append, List.append_assoc, Scan.excess?, if_pos ⟨rfl, rfl⟩, stop, ih]
  | @block note cs closed _ ih =>
    rw [List.cons_append, List.cons_append, List.append_assoc, List.cons_append, List.cons_append,
      Scan.excess?, if_neg (by simp), if_pos ⟨rfl, rfl⟩, List.tail_cons, dropBlock_of_closed closed, ih]

/-- A bracket that closes a level counts for one level less. -/
lemma excess?_ender (closes : c ∈ enders) :
    excess? limit last depth (c :: cs) = excess? limit c (depth - 1) cs := by
  have told : ∀ c ∈ enders, c ≠ '/' ∧ isQuote c = false ∧ c ∉ openers :=
    List.all_iff_forall_prop.mp (by decide)
  obtain ⟨slash, quote, opens⟩ := told c closes
  rw [excess?, if_neg fun h => slash h.1, if_neg fun h => slash h.1, if_neg fun h => slash h.1, quote,
    if_neg Bool.false_ne_true]
  rw [if_neg (show c ∉ ['(', '[', '\x7b'] from opens)]
  exact if_pos closes

/-- A quoted text is passed over. -/
lemma excess?_quoted (quote : isQuote c = true) (ends : dropQuoted c cs = rest) :
    excess? limit last depth (c :: cs) = excess? limit c depth rest := by
  have slash : c ≠ '/' := by
    rintro rfl
    cases quote
  rw [excess?, if_neg fun h => slash h.1, if_neg fun h => slash h.1, if_neg fun h => slash h.1, quote,
    if_pos rfl, ends]

/-- A slash begins a regular expression after some characters only. -/
lemma excess?_slash (noComment : cs.head? ≠ some '/' ∧ cs.head? ≠ some '*') :
    excess? limit last depth ('/' :: cs) =
      if last ∈ beforePattern then excess? limit '/' depth (dropPattern false cs)
      else excess? limit '/' depth cs := by
  rw [excess?, if_neg fun h => noComment.1 h.2, if_neg fun h => noComment.2 h.2]
  by_cases pattern : last ∈ beforePattern
  · rw [if_pos ⟨rfl, pattern⟩, if_pos pattern]
  · rw [if_neg fun h => pattern h.2, if_neg (by decide), if_neg (by decide), if_neg (by decide),
      if_neg pattern]
    rfl

end Excess

section AfterCode

/-- A text is code to its end, whatever follows it that begins like the given text. -/
def Keeps (rest cs : List Char) : Prop :=
  ∀ es, Follows es rest → ∀ kept, afterCode kept (cs ++ es) = afterCode es es

/-- A text holds no code, whatever follows it that begins like the given text. -/
def Drops (rest cs : List Char) : Prop :=
  ∀ es, Follows es rest → ∀ kept, afterCode kept (cs ++ es) = afterCode kept es

/-- Whether no comment and no quoted text begins where the scan for the end reads a text, when `next` is the
character behind it. A backslash takes the next character with it. -/
def isStraight (next : Option Char) : List Char → Bool
  | [] => true
  | '\\' :: cs => match cs with
    | [] => false
    | _ :: cs => isStraight next cs
  | c :: cs => !isQuote c && !(c == '/' && [some '/', some '*'].contains (cs.head?.or next)) &&
      isStraight next cs

/-- Characters that stand for themselves begin nothing. -/
lemma isStraight_of_lone {next : Option Char} (lone : ∀ x ∈ cs, isLone x = true) :
    isStraight next cs = true := by
  induction cs with
  | nil => rfl
  | cons x xs ih =>
    obtain ⟨slash, escape, quote, -⟩ := isLone_spec (lone x List.mem_cons_self)
    have rest : isStraight next xs = true := ih fun y hy => lone y (List.mem_cons_of_mem x hy)
    rw [isStraight]
    · simp [slash, quote, rest]
    · exact escape

/-- A straight text that ends in code is code to its end. -/
lemma keeps_of_isStraight (straight : isStraight rest.head? cs = true) (ne : cs ≠ [])
    (solid : ∀ x ∈ cs.getLast?, Text.isAsciiBlank x = false) : Keeps rest cs := by
  -- No lexeme of the text is longer than a character, or than two with an escape, and the last is no blank.
  intro es follows kept
  have behind {x : Char} {xs : List Char} (ne : xs ≠ [])
      (solid : ∀ y ∈ (x :: xs).getLast?, Text.isAsciiBlank y = false) :
      ∀ y ∈ xs.getLast?, Text.isAsciiBlank y = false := by
    rwa [List.getLast?_cons_of_ne_nil ne] at solid
  generalize next_eq : rest.head? = next at straight
  fun_induction isStraight next cs generalizing kept with
  | case1 => exact absurd rfl ne
  | case2 => cases straight
  | case3 d cs ih =>
    have reads : lexeme '\\' (d :: cs ++ es) = (true, cs ++ es) := rfl
    rw [List.cons_append, afterCode, reads, if_pos rfl]
    by_cases last : cs = []
    · rw [last, List.nil_append]
    · exact ih last (behind last (behind (List.cons_ne_nil d cs) solid)) _ straight
  | case4 c cs escape ih =>
    simp only [Bool.and_eq_true, Bool.not_eq_true'] at straight
    obtain ⟨⟨quote, comment⟩, straight⟩ := straight
    have notComment {d : Char} (mem : some d ∈ [some '/', some '*']) :
        ¬(c = '/' ∧ (cs ++ es).head? = some d) := by
      rintro ⟨rfl, here⟩
      have next : cs.head?.or next = some d := by
        rw [List.head?_append] at here
        cases first : cs.head? with
        | some x => rwa [first] at here
        | none =>
          rw [first, Option.none_or] at here
          rw [← next_eq, Option.none_or]
          exact follows d here
      rw [next] at comment
      simp only [List.contains_eq_mem, mem, decide_true, beq_self_eq_true, Bool.and_self,
        reduceCtorEq] at comment
    have notEscape : c ≠ '\\' := fun same => escape same
    have reads : lexeme c (cs ++ es) = (!Text.isAsciiBlank c, cs ++ es) := by
      rw [lexeme, if_neg (notComment (by simp)), if_neg (notComment (by simp)), quote,
        if_neg Bool.false_ne_true, if_neg notEscape]
    rw [List.cons_append, afterCode, reads]
    by_cases last : cs = []
    · subst last
      rw [solid c rfl]
      rfl
    · exact ih last (behind last solid) _ straight

/-- A quoted text is code to its end. -/
lemma keeps_quoted {quote : Char} (isQuote : Scan.isQuote quote = true)
    (ends : dropQuoted quote (cs ++ rest) = rest) : Keeps rest (quote :: cs) := by
  intro es follows kept
  obtain ⟨front, split, stops⟩ := dropQuoted_stopsAlike quote (cs ++ rest)
  rw [ends] at split stops
  obtain rfl : cs = front := List.append_cancel_right split
  have slash {p : Prop} : ¬(quote = '/' ∧ p) := by
    rintro ⟨rfl, -⟩
    cases isQuote
  have reads : lexeme quote (cs ++ es) = (true, es) := by
    rw [lexeme, if_neg slash, if_neg slash, if_pos isQuote, stops es follows]
  rw [List.cons_append, afterCode, reads, if_pos rfl]

/-- Blanks and comments hold no code. -/
lemma Spacing.drops (h : Spacing rest cs) : Drops rest cs := by
  intro es follows kept
  have skip {c : Char} {cs after : List Char} (reads : lexeme c cs = (false, after)) :
      afterCode kept (c :: cs) = afterCode kept after := by
    rw [afterCode, reads]
    rfl
  have behind := h.follows follows
  clear h
  induction behind with
  | nil => rfl
  | @blank c cs blank _ ih =>
    obtain ⟨slash, escape, quote, -⟩ := isLone_spec (isLone_of_isAsciiBlank blank)
    have reads : lexeme c (cs ++ es) = (false, cs ++ es) := by
      rw [lexeme, if_neg fun h => slash h.1, if_neg fun h => slash h.1, quote, if_neg Bool.false_ne_true,
        if_neg escape, blank, Bool.not_true]
    rw [List.cons_append, skip reads, ih]
  | @line note cs free ends _ ih =>
    have stop : dropLine ('/' :: (note ++ (cs ++ es))) = cs ++ es :=
      (dropLine_append ('/' :: note) (by simpa using free)).trans (dropLine_of_follows ends)
    have reads : lexeme '/' ('/' :: (note ++ cs) ++ es) = (false, cs ++ es) := by
      rw [List.cons_append, List.append_assoc]
      exact congrArg (Prod.mk false) stop
    rw [List.cons_append, skip reads, ih]
  | @block note cs closed _ ih =>
    have reads : lexeme '/' ('*' :: (note ++ '*' :: '/' :: cs) ++ es) = (false, cs ++ es) := by
      rw [List.cons_append, List.append_assoc, List.cons_append, List.cons_append]
      exact congrArg (Prod.mk false) (dropBlock_of_closed closed)
    rw [List.cons_append, skip reads, ih]

end AfterCode

end ScriptTyping.Scan
