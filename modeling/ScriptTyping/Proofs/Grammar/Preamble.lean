import ScriptTyping.Grammar.Language
import ScriptTyping.Proofs.Peg.Forward
import ScriptTyping.Proofs.Peg.Shift
import ScriptTyping.Proofs.Scan.Lexeme

/-!
# What may stand before a program

A preamble is a text of blanks and closed comments. It is a gap (`IsPreamble.gap`), so the same
statements are read after it as without it, at later places (`reads_program_iff`), and brackets in it
do not count (`IsPreamble.excess?`).
-/

namespace ScriptTyping.Grammar
open Peg Peg.Expr

/-- A piece of a preamble: a blank, a comment between marks, or a comment that ends with its line. -/
inductive IsFiller : List Char → Prop where
  | blank {c : Char} :
    c ∈ [' ', '\t', '\n'] →
    IsFiller [c]
  | block {cs : List Char} :
    ¬ ['*', '/'] <:+: cs ++ ['*'] →
    IsFiller ("/*".toList ++ (cs ++ "*/".toList))
  | line {cs : List Char} :
    '\n' ∉ cs →
    '\r' ∉ cs →
    IsFiller ("//".toList ++ (cs ++ ['\n']))

/-- A text of nothing but such pieces. -/
inductive IsPreamble : List Char → Prop where
  | nil :
    IsPreamble []
  | append {a p : List Char} :
    IsFiller a →
    IsPreamble p →
    IsPreamble (a ++ p)

variable {p : List Char}

section Gaps

variable {m : Mode} {c d : Cursor}

/-- Nothing in a text at which `e` matches, down to the place where it does. -/
lemma reads_until {e : Expr Rule} {cs : List Char} (tight : m.atomicity ≠ .normal)
    (leads : c.Leads cs d)
    (free : ∀ i pre x xs, cs = pre ++ x :: xs →
      Reads language m.refusing (.once e) ⟨i, x :: xs ++ d.rest⟩ none)
    {q : Match Rule} (stop : Reads language m.refusing (.once e) d (some q)) :
    ∃ q, Reads language m (.once (.star (anyBut e))) c (some q) ∧ q.place = d := by
  induction cs generalizing c with
  | nil =>
    have here : c = d := by
      have := Cursor.skip?_of_leads leads
      simpa [Cursor.skip?] using this
    subst here
    exact ⟨_, .starNone (.seqFirst (.notAheadFail stop)), rfl⟩
  | cons x xs ih =>
    obtain ⟨i, r⟩ := c
    obtain ⟨rest, index⟩ := leads
    cases rest
    have one : Reads language m (.once (anyBut e)) ⟨i, x :: xs ++ d.rest⟩
        (some ⟨⟨i + 1, xs ++ d.rest⟩, [], some (i + 1)⟩) :=
      .seq (.notAhead (free i [] x xs rfl)) (.tight tight) (.char rfl)
    obtain ⟨q, more, place⟩ := ih (c := ⟨i + 1, xs ++ d.rest⟩)
      ⟨rfl, by simp only [List.length_cons] at index ⊢; omega⟩
      fun i pre y ys e => free i (x :: pre) y ys (congrArg (x :: ·) e)
    obtain ⟨q', all, place'⟩ := Reads.star_step tight one more
    exact ⟨q', all, place'.trans place⟩

/-- A text that is read as blanks: what is a repetition of blanks after it is one from its start. -/
def Skipped (m : Mode) (cs : List Char) : Prop :=
  ∀ (c d : Cursor) (q : Match Rule), c.Leads cs d →
    Reads language m (.once (.star blank)) d (some q) →
    ∃ q', Reads language m (.once (.star blank)) c (some q') ∧ q'.place = q.place

lemma Skipped.append {as bs : List Char} (first : Skipped m as) (second : Skipped m bs) :
    Skipped m (as ++ bs) := by
  intro c d q leads reads
  obtain ⟨e, before, after⟩ := leads.split
  obtain ⟨q₁, reads₁, place₁⟩ := second _ _ _ after reads
  obtain ⟨q₂, reads₂, place₂⟩ := first _ _ _ before reads₁
  exact ⟨q₂, reads₂, place₂.trans place₁⟩

/-- A text that is read as one blank. -/
lemma Skipped.one {cs : List Char} (tight : m.atomicity ≠ .normal)
    (one : ∀ c d : Cursor, c.Leads cs d →
      ∃ q, Reads language m (.once blank) c (some q) ∧ q.place = d) : Skipped m cs := by
  intro c d q leads reads
  obtain ⟨q₁, first, rfl⟩ := one _ _ leads
  exact Reads.star_step tight first reads

lemma skipped_blank {x : Char} (tight : m.atomicity ≠ .normal) (hx : isBlank x = true) :
    Skipped m [x] :=
  .one tight fun _ _ leads => ⟨_, .choiceFirst (.char_of_leads hx leads), rfl⟩

/-- A slash is no white space. -/
lemma blank_slash {rest : List Char} (slash : c.rest = '/' :: rest) :
    Reads language m (.once (.char isBlank)) c none := by
  obtain ⟨i, r⟩ := c
  cases slash
  exact .charFail (by decide)

/-- A text does not begin where another one of its characters stands. -/
lemma text_fails {x y : Char} {xs ys : List Char} (rest : c.rest = y :: ys) (ne : x ≠ y) :
    Reads language m (.once (.text (x :: xs))) c none :=
  .textFail (Cursor.skip?_eq_none rest ne)

lemma skipped_block {cs : List Char} (tight : m.atomicity ≠ .normal)
    (closed : ¬ ['*', '/'] <:+: cs ++ ['*']) : Skipped m ("/*".toList ++ (cs ++ "*/".toList)) := by
  refine .one tight fun c d leads => ?_
  obtain ⟨c₁, opening, leads₁⟩ := leads.split
  obtain ⟨c₂, inside, closing⟩ := leads₁.split
  obtain ⟨_, opened⟩ := Reads.text_of_leads (g := language) (m := m) opening
  obtain ⟨_, ended⟩ := Reads.text_of_leads (g := language) (m := m) closing
  obtain ⟨_, stop⟩ := Reads.text_of_leads (g := language) (m := m.refusing) closing
  have rest : c₂.rest = '*' :: '/' :: d.rest := closing.1
  -- The end does not stand earlier, not even with the star of the end as its own.
  have free : ∀ i pre x xs, cs = pre ++ x :: xs →
      Reads language m.refusing (.once (token "*/")) ⟨i, x :: xs ++ c₂.rest⟩ none := by
    intro i pre x xs split
    refine .textFail ?_
    by_cases star : '*' = x
    · subst star
      rw [show "*/".toList = ['*', '/'] from rfl, List.cons_append, Cursor.skip?, if_pos rfl]
      rcases xs with _ | ⟨y, ys⟩
      · rw [rest]
        rfl
      · refine Cursor.skip?_eq_none (List.cons_append) ?_
        rintro rfl
        exact closed ⟨pre, ys ++ ['*'], by simp [split]⟩
    · exact Cursor.skip?_eq_none (List.cons_append) star
  obtain ⟨q, body, place⟩ := reads_until tight inside free stop
  subst place
  have whole := Reads.seq opened (.tight tight) (Reads.seq body (.tight tight) ended)
  exact ⟨_, .choiceSecond (blank_slash opening.1) (.choiceFirst whole), rfl⟩

lemma newline_fails {x : Char} {xs : List Char} {i : Nat} (feed : '\n' ≠ x) (back : '\r' ≠ x) :
    Reads language m (.once newline) ⟨i, x :: xs⟩ none :=
  .choiceSecond (text_fails rfl feed) (.choiceSecond (text_fails rfl back) (text_fails rfl back))

lemma skipped_line {cs : List Char} (tight : m.atomicity ≠ .normal) (feed : '\n' ∉ cs)
    (back : '\r' ∉ cs) : Skipped m ("//".toList ++ (cs ++ ['\n'])) := by
  rw [← List.append_assoc]
  -- The line break is a blank of its own.
  intro c d q leads reads
  obtain ⟨c₂, comment, break'⟩ := leads.split
  have rest : c₂.rest = '\n' :: d.rest := break'.1
  obtain ⟨q₁, reads₁, place₁⟩ := skipped_blank tight (by decide) _ _ _ break' reads
  obtain ⟨c₁, opening, inside⟩ := comment.split
  obtain ⟨_, opened⟩ := Reads.text_of_leads (g := language) (m := m) opening
  have free : ∀ i pre x xs, cs = pre ++ x :: xs →
      Reads language m.refusing (.once newline) ⟨i, x :: xs ++ c₂.rest⟩ none := by
    rintro i pre x xs rfl
    refine newline_fails ?_ ?_
    · rintro rfl
      exact feed (by simp)
    · rintro rfl
      exact back (by simp)
  obtain ⟨_, stop⟩ := Reads.text_of_leads (g := language) (m := m.refusing) break'
  obtain ⟨q₂, body, place⟩ := reads_until (e := newline) tight inside free (.choiceFirst stop)
  subst place
  have one : Reads language m (.once (.seq (token "//") (.star (anyBut newline)))) c _ :=
    .seq opened (.tight tight) body
  have notBlock : Reads language m (.once (all [token "/*", .star (anyBut (token "*/")), token "*/"]))
      c none := by
    refine .seqFirst (.textFail ?_)
    obtain ⟨i, r⟩ := c
    obtain ⟨r', -⟩ := opening
    cases r'
    rfl
  obtain ⟨q₃, reads₃, place₃⟩ := Reads.star_step tight
    (.choiceSecond (blank_slash opening.1) (.choiceSecond notBlock (.choiceFirst one))) reads₁
  exact ⟨q₃, reads₃, place₃.trans place₁⟩

lemma IsFiller.skipped {a : List Char} (tight : m.atomicity ≠ .normal) (h : IsFiller a) :
    Skipped m a := by
  cases h with
  | blank hc =>
    refine skipped_blank tight ?_
    simp only [List.mem_cons, List.not_mem_nil, or_false] at hc
    rcases hc with rfl | rfl | rfl
    all_goals decide
  | block closed => exact skipped_block tight closed
  | line feed back => exact skipped_line tight feed back

lemma IsPreamble.skipped {p : List Char} (tight : m.atomicity ≠ .normal) (h : IsPreamble p) :
    Skipped m p := by
  induction h with
  | nil =>
    intro c d q leads reads
    obtain rfl : c = d := by simpa [Cursor.skip?] using Cursor.skip?_of_leads leads
    exact ⟨q, reads, rfl⟩
  | append filler _ ih => exact (filler.skipped tight).append ih

/-- A gap goes on from the start of a preamble to where it ends after it. -/
lemma IsPreamble.gap {p : List Char} {q : Match Rule} (h : IsPreamble p)
    (normal : m.atomicity = .normal) (leads : c.Leads p d)
    (reads : Reads language m (.once .gap) d (some q)) :
    ∃ q', Reads language m (.once .gap) c (some q') ∧ q'.place = q.place := by
  cases reads with
  | gap _ blanks =>
    obtain ⟨q', longer, place⟩ := h.skipped (by simp) _ _ _ leads blanks
    exact ⟨_, .gap normal longer, place⟩
  | tight tight => exact absurd normal tight

end Gaps

section Programs

variable {cs : List Char}

/-- After a preamble the same program is read at later places, or none. -/
theorem reads_program_iff (h : IsPreamble p) :
    (∀ q, Reads language .outset (.once (body .program)) ⟨0, cs⟩ (some q) →
      ∃ q', Reads language .outset (.once (body .program)) ⟨0, p ++ cs⟩ (some q') ∧
        q'.trees = q.trees.map (Tree.shift p.length)) ∧
      (Reads language .outset (.once (body .program)) ⟨0, cs⟩ none →
        Reads language .outset (.once (body .program)) ⟨0, p ++ cs⟩ none) := by
  have leads : (⟨0, p ++ cs⟩ : Cursor).Leads p ((⟨0, cs⟩ : Cursor).shift p.length) := ⟨rfl, rfl⟩
  refine ⟨fun q reads => ?_, fun reads => ?_⟩
  · cases reads with
    | seq nothing gap statements =>
      cases nothing
      obtain ⟨q', gap', place⟩ := h.gap rfl leads (gap.shift p.length)
      have statements' := statements.shift p.length
      rw [← Match.shift_place, ← place] at statements'
      exact ⟨_, .seq .empty gap' statements', rfl⟩
  · cases reads with
    | seqFirst nothing => cases nothing
    | seqSecond nothing gap statements =>
      cases nothing
      obtain ⟨q', gap', place⟩ := h.gap rfl leads (gap.shift p.length)
      have statements' := statements.shift p.length
      rw [← Match.shift_place, ← place] at statements'
      exact .seqSecond .empty gap' statements'

end Programs

section Nesting
open Scan

/-- A blank changes nothing for the brackets after it. -/
lemma excess?_blank {limit depth : Nat} {last x : Char} {cs : List Char}
    (hx : x ∈ [' ', '\t', '\n']) :
    excess? limit last depth (x :: cs) = excess? limit last depth cs := by
  simp only [List.mem_cons, List.not_mem_nil, or_false] at hx
  rw [excess?]
  rcases hx with rfl | rfl | rfl
  all_goals simp [isQuote, Text.isAsciiBlank]

/-- Brackets in a piece of a preamble do not count, and what stands before a slash stays the same. -/
lemma IsFiller.excess? {a cs : List Char} (h : IsFiller a) {limit depth : Nat} {last : Char} :
    Scan.excess? limit last depth (a ++ cs) = Scan.excess? limit last depth cs := by
  cases h with
  | blank hc => exact excess?_blank hc
  | @block body closed =>
    have rest : "/*".toList ++ (body ++ "*/".toList) ++ cs =
        '/' :: '*' :: (body ++ '*' :: '/' :: cs) := by simp
    rw [rest, Scan.excess?, if_neg (by simp), if_pos (by simp), List.tail_cons,
      dropBlock_of_closed closed]
  | @line body feed back =>
    have rest : "//".toList ++ (body ++ ['\n']) ++ cs = '/' :: '/' :: (body ++ '\n' :: cs) := by
      simp
    have slashed : dropLine ('/' :: (body ++ '\n' :: cs)) = '\n' :: cs :=
      dropLine_append ('/' :: body) (by simpa using feed)
    rw [rest, Scan.excess?, if_pos (by simp), slashed, excess?_blank (by simp)]

/-- Brackets in a preamble do not count. -/
lemma IsPreamble.excess? {cs : List Char} (h : IsPreamble p) {limit depth : Nat} {last : Char} :
    Scan.excess? limit last depth (p ++ cs) = Scan.excess? limit last depth cs := by
  induction h with
  | nil => rfl
  | append filler _ ih => rw [List.append_assoc, filler.excess?, ih]

end Nesting

end ScriptTyping.Grammar
