import ScriptTyping.Proofs.Grammar.Numbers
import ScriptTyping.Proofs.Grammar.Ranking
import ScriptTyping.Proofs.Peg.Tokens
import ScriptTyping.Proofs.Scan.Spacing

/-!
# The tokens of the language

Most tokens are plain: no slash, no quote and no bracket is in them, and they end in code. The others are
strings and templates, regular expressions, the two operators with a slash, and the brackets
(`shape_of_word`, `isSign_of_mem`). The brackets of a program are closed by their partners
(`exists_tokens`).
-/

namespace ScriptTyping.Grammar
open Peg Peg.Expr Scan

variable {m : Mode} {c d : Cursor} {q : Match Rule} {cs es : List Char}

section Words

/-- A character of code that stands for itself. -/
def isInk (x : Char) : Bool :=
  isLone x && !Text.isAsciiBlank x

lemma lone_of_ink (h : ∀ x ∈ cs, isInk x = true) : Lone cs :=
  .of_forall fun x hx => by simpa [isInk] using h x hx

lemma isInk_of_isIdentPart {x : Char} (h : isIdentPart x = true) : isInk x = true := by
  have other : ∀ y ∈ ['/', '\\', '"', '\'', '\x60', '(', '[', '\x7b', ')', ']', '\x7d', ' ', '\t', '\n', '\r',
      '\x0C'], isIdentPart y = false := List.all_iff_forall_prop.mp (by decide +kernel)
  have ne {y : Char} (hy : isIdentPart y = false) : x ≠ y := by
    rintro rfl
    rw [h] at hy
    cases hy
  simp only [List.forall_mem_cons] at other
  simp [isInk, isLone, isQuote, openers, enders, Text.isAsciiBlank, ne, other]

lemma isInk_of_isIdentStart {x : Char} (h : isIdentStart x = true) : isInk x = true :=
  isInk_of_isIdentPart (isIdentPart_of_isIdentStart h)

lemma isInk_of_isHexDigit {x : Char} (h : isHexDigit x = true) : isInk x = true :=
  isInk_of_isIdentPart (isIdentPart_of_isHexDigit h)

lemma isInk_of_inNumber {x : Char} (h : inNumber x = true) : isInk x = true := by
  have marks : ∀ x ∈ "xXoO_.+-".toList, isInk x = true := List.all_iff_forall_prop.mp (by decide)
  rw [inNumber, Bool.or_eq_true, decide_eq_true_eq] at h
  exact h.elim isInk_of_isHexDigit (marks x)

lemma madeOf_oneOf {p : Char → Bool} {es : List (Expr Rule)} (each : ∀ e ∈ es, MadeOf p e) :
    MadeOf p (oneOf es) := by
  induction es with
  | nil => trivial
  | cons e es ih =>
    cases es with
    | nil => exact each e List.mem_cons_self
    | cons d ds => exact ⟨each e List.mem_cons_self, ih fun a ha => each a (List.mem_cons_of_mem e ha)⟩

lemma madeOf_wholeWord {p : Char → Bool} {ws : List String}
    (each : ws.all (fun w => w.toList.all p) = true) : MadeOf p (wholeWord ws) := by
  refine ⟨madeOf_oneOf fun e he => ?_, trivial⟩
  obtain ⟨w, hw, rfl⟩ := List.mem_map.1 he
  exact List.all_eq_true.1 (List.all_eq_true.1 each w hw)

lemma madeOf_butNot {p : Char → Bool} {w : String} {others : List String}
    (each : w.toList.all p = true) : MadeOf p (butNot w others) :=
  ⟨List.all_eq_true.1 each, trivial⟩

/-- The words of which every one is made of code that stands for itself. -/
def isPlainWord : Rule → Bool
  | .string | .templateLiteral | .regex | .assignmentOperator | .binaryOperator .multiplicative => false
  | r => kind r = .atomic

/-- A plain word is made of code that stands for itself. -/
lemma madeOf_body {r : Rule} (plain : isPlainWord r = true) (other : r ≠ .number) :
    MadeOf isInk (body r) := by
  have part : MadeOf isInk (.star identPart) := fun x => isInk_of_isIdentPart
  have start : MadeOf isInk identStart := fun x => isInk_of_isIdentStart
  have digits : MadeOf isInk digit := fun x hx => isInk_of_isHexDigit (by simp [isHexDigit, hx])
  have text {w : String} (each : w.toList.all isInk = true) : MadeOf isInk (token w) :=
    List.all_eq_true.1 each
  -- The other words are spelled out in the grammar.
  cases r
  case keyword => exact madeOf_wholeWord (by decide +kernel)
  case identifier => exact ⟨trivial, start, part⟩
  case propertyIdentifier => exact ⟨start, part⟩
  case privateIdentifier => exact ⟨text (by decide), start, part⟩
  case bigint => exact ⟨⟨digits, digits⟩, text (by decide), trivial⟩
  case number => exact absurd rfl other
  case updateSuffix => exact ⟨text (by decide), text (by decide)⟩
  case unaryOperator =>
    refine madeOf_oneOf (List.forall_mem_append.2 ⟨fun e he => ?_, List.forall_mem_singleton.2 ?_⟩)
    · obtain ⟨w, hw, rfl⟩ := List.mem_map.1 he
      have each : ∀ w ∈ ["++", "--", "+", "-", "!", "~"], w.toList.all isInk = true := by decide
      exact text (each w hw)
    · exact madeOf_wholeWord (by decide)
  case binaryOperator level =>
    cases level
    case logicalOr => exact ⟨⟨text (by decide), text (by decide)⟩, trivial⟩
    case equality => exact ⟨text (by decide), text (by decide), text (by decide), text (by decide)⟩
    case relational =>
      exact ⟨⟨text (by decide), text (by decide)⟩, madeOf_butNot (by decide), madeOf_butNot (by decide),
        madeOf_wholeWord (by decide)⟩
    case shift => exact ⟨madeOf_butNot (by decide), madeOf_butNot (by decide), madeOf_butNot (by decide)⟩
    case additive => exact ⟨madeOf_butNot (by decide), madeOf_butNot (by decide)⟩
    case multiplicative => cases plain
    all_goals exact madeOf_butNot (by decide)
  all_goals first
    | cases plain; done
    | exact madeOf_wholeWord (by decide)

/-- What spells a plain word is code that stands for itself. -/
lemma ink_of_spells {r : Rule} (plain : isPlainWord r = true) (h : Spells (body r) cs) :
    ∀ x ∈ cs, isInk x = true := by
  by_cases number : r = .number
  · subst number
    exact fun x hx => isInk_of_inNumber (inNumber_of_spells h x hx)
  · exact forall_of_madeOf (madeOf_body plain number) h

/-- A rule without gaps that is read as a plain word. -/
lemma ink_of_call {r : Rule} (plain : isPlainWord r = true)
    (h : Reads language m (.once (.call r)) c (some q)) :
    ∃ cs, c.Leads cs q.place ∧ cs ≠ [] ∧ ∀ x ∈ cs, isInk x = true := by
  obtain ⟨atomic, consuming⟩ : language.kind r = .atomic ∧ isConsuming r = true := by
    cases r
    all_goals first
      | exact ⟨rfl, rfl⟩
      | cases plain
  cases h with
  | silent quiet _ => simp [atomic] at quiet
  | @call _ _ _ q _ h =>
    obtain ⟨cs, leads, spelled⟩ := h.spells (by simp [atomic, Mode.within])
    have lt := h.index_lt consumes_body (consumes_body r consuming)
    refine ⟨cs, leads, ?_, ink_of_spells plain spelled⟩
    rintro rfl
    rw [leads.2, List.length_nil] at lt
    exact absurd lt (Nat.lt_irrefl _)

/-- A statement that leaves what is around it stands for itself and ends in code. -/
lemma lone_of_jump {w : String} (tight : m.atomicity ≠ .normal) (ink : w.toList.all isInk = true)
    (h : Reads language m (.once (jump w)) c (some q)) :
    ∃ cs, c.Leads (w.toList ++ cs) q.place ∧ Lone (w.toList ++ cs) := by
  have spaces {c : Cursor} {q : Match Rule} (h : Reads language m (.once inlineSpace) c (some q)) :
      ∃ xs, c.Leads xs q.place ∧ ∀ x ∈ xs, isLone x = true := by
    have blank : ∀ x ∈ [' ', '\t'], isLone x = true := List.all_iff_forall_prop.mp (by decide)
    have made : MadeOf isLone inlineSpace :=
      ⟨fun x hx => blank x (by simpa using hx), fun x hx => blank x (by simpa using hx)⟩
    obtain ⟨xs, leads, spelled⟩ := h.spells tight
    exact ⟨xs, leads, forall_of_madeOf made spelled⟩
  obtain ⟨_, _, word, rest, place⟩ := h.seq_parts tight
  obtain ⟨_, _, whole, rest, place₁⟩ := rest.seq_parts tight
  obtain ⟨label, last, labelled, ended, place₂⟩ := rest.seq_parts tight
  cases word with
  | text skip =>
  cases whole with
  | notAhead _ =>
  have begins := Cursor.leads_of_skip? skip
  obtain ⟨ls, l₁, lone₁⟩ : ∃ ls, Cursor.Leads _ ls label.place ∧ Lone ls := by
    cases labelled with
    | optNone _ => exact ⟨[], .refl _, .nil⟩
    | optSome h =>
      obtain ⟨_, _, space, name, place⟩ := h.seq_parts tight
      obtain ⟨xs, l, lone⟩ := spaces space
      obtain ⟨ys, l', ne, ink⟩ := ink_of_call rfl name
      exact ⟨xs ++ ys, place ▸ l.trans l', .behind lone ne (lone_of_ink ink)⟩
  -- Blanks stand only in front of a label or of the semicolon, so the token does not end in one.
  obtain ⟨es, l₂, lone₂⟩ : ∃ es, label.place.Leads es last.place ∧ Lone es := by
    cases ended with
    | optNone _ => exact ⟨[], .refl _, .nil⟩
    | optSome h =>
      obtain ⟨_, _, space, semicolon, place⟩ := h.seq_parts tight
      have ends : Lone [';'] := lone_of_ink (List.forall_mem_singleton.2 (by decide))
      cases semicolon with
      | text skip =>
      have l' := Cursor.leads_of_skip? skip
      cases space with
      | optNone _ => exact ⟨[';'], place ▸ l', ends⟩
      | optSome h =>
        obtain ⟨xs, l, lone⟩ := spaces h
        exact ⟨xs ++ [';'], place ▸ l.trans l', .behind lone (by simp) ends⟩
  rw [place, place₁, place₂]
  exact ⟨ls ++ es, begins.trans (l₁.trans l₂),
    (lone_of_ink (List.all_eq_true.1 ink)).append (lone₁.append lone₂)⟩

end Words

section Quotes

/-- Any character but one at which an expression matches. -/
lemma exists_of_anyBut {e : Expr Rule} (tight : m.atomicity ≠ .normal)
    (h : Reads language m (.once (anyBut e)) c (some q)) :
    ∃ x, c.Leads [x] q.place ∧ Reads language m.refusing (.once e) c none := by
  obtain ⟨_, _, other, any, place⟩ := h.seq_parts tight
  rw [place]
  cases other with
  | notAhead fails =>
  cases any with
  | char _ => exact ⟨_, ⟨rfl, rfl⟩, fails⟩

/-- A character that is not the one that is looked for. -/
lemma ne_of_text_fails {x y : Char} (rest : c.rest = x :: cs)
    (h : Reads language m (.once (.text [y])) c none) : x ≠ y := by
  rintro rfl
  cases h with
  | textFail skip =>
    obtain ⟨i, _⟩ := c
    cases rest
    simp [Cursor.skip?] at skip

/-- A backslash and the character that it takes with it. -/
lemma exists_of_escape (tight : m.atomicity ≠ .normal)
    (h : Reads language m (.once (.seq (token "\\") any)) c (some q)) :
    ∃ x, c.Leads ['\\', x] q.place := by
  obtain ⟨_, _, slash, any, place⟩ := h.seq_parts tight
  rw [place]
  cases slash with
  | text skip =>
  cases any with
  | char _ => exact ⟨_, (Cursor.leads_of_skip? skip).trans ⟨rfl, rfl⟩⟩

/-- A text in quotes is read up to its first quote that no backslash takes. -/
lemma quoted_reads (quote : Char) {w : String} (one : w.toList = [quote]) (ne : quote ≠ '\\')
    (tight : m.atomicity ≠ .normal) (h : Reads language m (.once (quoted w)) c (some q)) :
    ∃ body, c.Leads (quote :: body) q.place ∧ body.getLast? = some quote ∧
      dropQuoted quote (body ++ q.place.rest) = q.place.rest := by
  obtain ⟨d, _, opens, h, place₁⟩ := h.seq_parts tight
  obtain ⟨e, last, inside, closes, place₂⟩ := h.seq_parts tight
  rw [place₁, place₂]
  obtain ⟨cs, between⟩ := inside.leads
  cases opens with
  | text skip =>
  cases closes with
  | text skip' =>
  have begins := Cursor.leads_of_skip? skip
  have ends := Cursor.leads_of_skip? skip'
  rw [one] at begins ends
  refine ⟨cs ++ [quote], begins.trans (between.trans ends), List.getLast?_concat, ?_⟩
  rw [List.append_assoc, ← ends.1, ← between.1]
  -- From the closing quote backwards: the scan comes to it from behind each character of the text.
  refine inside.star_back (P := fun c => dropQuoted quote c.rest = _) tight ?_ ?_
  · intro c q part same
    cases part with
    | choiceFirst h =>
      obtain ⟨x, l⟩ := exists_of_escape tight h
      rw [l.1, dropQuoted.eq_def]
      simp [ne.symm, same]
    | choiceSecond _ h =>
      obtain ⟨x, l, fails⟩ := exists_of_anyBut tight h
      cases fails with
      | choiceSecond noQuote fails =>
      cases fails with
      | choiceSecond noSlash _ =>
      rw [token, one] at noQuote
      have notQuote := ne_of_text_fails l.1 noQuote
      have notSlash : x ≠ '\\' := ne_of_text_fails l.1 noSlash
      rw [l.1, dropQuoted.eq_def]
      simp [notQuote, notSlash, same]
  · rw [ends.1, dropQuoted.eq_def]
    simp

/-- A template stands between backticks. -/
lemma template_reads (tight : m.atomicity ≠ .normal)
    (h : Reads language m (.once templateLiteral) c (some q)) :
    ∃ body, c.Leads ('\x60' :: body) q.place ∧ body.getLast? = some '\x60' := by
  obtain ⟨cs, leads, xs, _, rfl, rfl, ys, zs, rfl, -, rfl⟩ := h.spells tight
  exact ⟨ys ++ ['\x60'], leads, List.getLast?_concat⟩

end Quotes

section Slashes

/-- Before a text that is refused. -/
lemma head?_ne_of_text_fails {y : Char} (h : Reads language m (.once (.text [y])) c none) :
    c.rest.head? ≠ some y := by
  intro here
  obtain ⟨cs, rest⟩ := List.head?_eq_some_iff.1 here
  exact ne_of_text_fails rest h rfl

/-- An operator that is one slash is not followed by another, or by a star. -/
lemma slash_reads (tight : m.atomicity ≠ .normal)
    (h : Reads language m (.once (operators .multiplicative)) c (some q)) :
    ∃ cs, c.Leads cs q.place ∧ ((∀ x ∈ cs, isInk x = true) ∨
      cs = ['/'] ∧ q.place.rest.head? ≠ some '/' ∧ q.place.rest.head? ≠ some '*') := by
  have alone {w : String} {others : List String} {q : Match Rule} (ink : w.toList.all isInk = true)
      (h : Reads language m (.once (butNot w others)) c (some q)) :
      ∃ cs, c.Leads cs q.place ∧ ((∀ x ∈ cs, isInk x = true) ∨
        cs = ['/'] ∧ q.place.rest.head? ≠ some '/' ∧ q.place.rest.head? ≠ some '*') := by
    obtain ⟨cs, leads, spelled⟩ := h.spells tight
    exact ⟨cs, leads, .inl (forall_of_madeOf (madeOf_butNot ink) spelled)⟩
  cases h with
  | choiceFirst h => exact alone (by decide) h
  | choiceSecond _ h =>
  cases h with
  | choiceFirst h => exact alone (by decide) h
  | choiceSecond _ h =>
  cases h with
  | choiceSecond _ h => exact alone (by decide) h
  | choiceFirst h =>
    obtain ⟨_, _, slash, other, place⟩ := h.seq_parts tight
    rw [place]
    cases slash with
    | text skip =>
    cases other with
    | notAhead fails =>
    cases fails with
    | choiceSecond noSlash fails =>
    cases fails with
    | choiceSecond noStar _ =>
    exact ⟨['/'], Cursor.leads_of_skip? skip, .inr ⟨rfl, head?_ne_of_text_fails noSlash,
      head?_ne_of_text_fails noStar⟩⟩

/-- What spells an operator of assignments. -/
lemma assignment_of_spells (h : Spells assignmentOperators cs) :
    (∀ x ∈ cs, isInk x = true) ∨ cs = ['/', '='] := by
  obtain ⟨e, he, spelled⟩ := spells_oneOf.1 h
  rcases List.mem_cons.1 he with rfl | he
  · exact .inl (forall_of_madeOf (madeOf_butNot (by decide)) spelled)
  · obtain ⟨w, hw, rfl⟩ := List.mem_map.1 he
    have each : ∀ w ∈ ["+=", "-=", "**=", "*=", "/=", "%=", "<<=", ">>>=", ">>=", "&&=", "||=", "??=", "&=",
        "|=", "^="], w.toList.all isInk = true ∨ w.toList = ['/', '='] := by decide
    obtain rfl : cs = w.toList := spelled
    exact (each w hw).imp_left List.all_eq_true.1

/-- In a class of characters a regular expression goes on up to the first bracket that closes it. -/
lemma class_reads {rest : List Char} (tight : m.atomicity ≠ .normal)
    (h : Reads language m (.once (all [token "[",
      .star (.choice (.seq (token "\\") any) (anyBut (oneOf [token "]", token "\\", newline]))),
      token "]"])) c (some q))
    (behind : dropPattern false q.place.rest = rest) : dropPattern false c.rest = rest := by
  obtain ⟨_, _, opens, h, place⟩ := h.seq_parts tight
  obtain ⟨_, _, inside, closes, place'⟩ := h.seq_parts tight
  cases opens with
  | text skip =>
  cases closes with
  | text skip' =>
  have begins : c.rest = '[' :: _ := (Cursor.leads_of_skip? skip).1
  have ends : Cursor.rest _ = ']' :: _ := (Cursor.leads_of_skip? skip').1
  rw [begins, dropPattern_cons (by decide), if_neg (by decide), if_pos rfl]
  -- From the closing bracket backwards.
  refine inside.star_back (P := fun c => dropPattern true c.rest = rest) tight ?_ ?_
  · intro c q part same
    cases part with
    | choiceFirst h =>
      obtain ⟨x, l⟩ := exists_of_escape tight h
      rw [l.1, List.cons_append, dropPattern_cons (by decide), if_pos rfl]
      exact same
    | choiceSecond _ h =>
      obtain ⟨x, l, fails⟩ := exists_of_anyBut tight h
      cases fails with
      | choiceSecond noBracket fails =>
      cases fails with
      | choiceSecond noSlash fails =>
      cases fails with
      | choiceSecond noFeed _ =>
      have notBracket : x ≠ ']' := ne_of_text_fails l.1 noBracket
      have notSlash : x ≠ '\\' := ne_of_text_fails l.1 noSlash
      have notFeed : x ≠ '\n' := ne_of_text_fails l.1 noFeed
      rw [l.1, List.cons_append, dropPattern_cons notFeed, if_neg notSlash, if_neg notBracket]
      simp only [reduceCtorEq, and_false, if_false, List.nil_append, ite_self]
      exact same
  · rw [ends, dropPattern_cons (by decide), if_neg (by decide), if_neg (by decide), if_pos rfl, ← behind,
      place, place']
    rfl

/-- A regular expression is read up to the slash that closes it, and then its flags. -/
lemma regex_reads (tight : m.atomicity ≠ .normal) (h : Reads language m (.once regex) c (some q)) :
    ∃ body flags, c.Leads ('/' :: (body ++ '/' :: flags)) q.place ∧
      (∀ x ∈ flags, isIdentPart x = true) ∧
      ((body ++ '/' :: flags) ++ q.place.rest).head? ≠ some '/' ∧
      ((body ++ '/' :: flags) ++ q.place.rest).head? ≠ some '*' ∧
      dropPattern false ((body ++ '/' :: flags) ++ q.place.rest) = flags ++ q.place.rest := by
  obtain ⟨_, _, opens, h, place₁⟩ := h.seq_parts tight
  obtain ⟨_, _, other, h, place₂⟩ := h.seq_parts tight
  obtain ⟨e, _, inside, h, place₃⟩ := h.seq_parts tight
  obtain ⟨_, _, closes, last, place₄⟩ := h.seq_parts tight
  rw [place₁, place₂, place₃, place₄]
  cases opens with
  | text skip =>
  cases other with
  | notAhead fails =>
  cases fails with
  | choiceSecond noSlash noStar =>
  cases closes with
  | text skip' =>
  have begins := Cursor.leads_of_skip? skip
  have ends := Cursor.leads_of_skip? skip'
  obtain ⟨body, between⟩ := inside.leads
  obtain ⟨flags, back, spelled⟩ := last.spells tight
  have whole := between.trans (ends.trans back)
  refine ⟨body, flags, begins.trans whole, forall_of_spells_star_char spelled, ?_⟩
  rw [show body ++ '/' :: flags ++ _ = _ from whole.1.symm]
  refine ⟨head?_ne_of_text_fails noSlash, head?_ne_of_text_fails noStar, ?_⟩
  rw [← back.1]
  -- Before each part of the pattern the scan comes to the same slash as behind it.
  have part {c : Cursor} {q : Match Rule} (h : Reads language m (.once (oneOf [
      all [token "[",
        .star (.choice (.seq (token "\\") any) (anyBut (oneOf [token "]", token "\\", newline]))),
        token "]"],
      .seq (token "\\") any,
      anyBut (oneOf [token "/", token "\\", token "[", newline])])) c (some q))
      {rest : List Char} (same : dropPattern false q.place.rest = rest) : dropPattern false c.rest = rest := by
    cases h with
    | choiceFirst h => exact class_reads tight h same
    | choiceSecond _ h =>
    cases h with
    | choiceFirst h =>
      obtain ⟨x, l⟩ := exists_of_escape tight h
      rw [l.1, List.cons_append, dropPattern_cons (by decide), if_pos rfl]
      exact same
    | choiceSecond _ h =>
      obtain ⟨x, l, fails⟩ := exists_of_anyBut tight h
      cases fails with
      | choiceSecond noSlash fails =>
      cases fails with
      | choiceSecond noEscape fails =>
      cases fails with
      | choiceSecond noBracket fails =>
      cases fails with
      | choiceSecond noFeed _ =>
      have notSlash : x ≠ '/' := ne_of_text_fails l.1 noSlash
      have notEscape : x ≠ '\\' := ne_of_text_fails l.1 noEscape
      have notBracket : x ≠ '[' := ne_of_text_fails l.1 noBracket
      have notFeed : x ≠ '\n' := ne_of_text_fails l.1 noFeed
      rw [l.1, List.cons_append, dropPattern_cons notFeed, if_neg notEscape, if_neg notBracket]
      simpa [notSlash] using same
  obtain ⟨_, _, first, more, place⟩ := inside.seq_parts tight
  refine part first (more.star_back (P := fun c => dropPattern false c.rest = _) tight
    (fun h same => part h same) ?_)
  have slash : e.place.rest = '/' :: _ := ends.1
  rw [← place, slash, dropPattern_cons (by decide)]
  simp

end Slashes

section Shapes

/-- What a word looks like, with the given text behind it. -/
inductive Shape (rest : List Char) : Rule → List Char → Prop where
  | plain {r cs} : r ≠ .templateLiteral → cs ≠ [] → Lone cs → Shape rest r cs
  | quoted {quote body} : isQuote quote = true → body.getLast? = some quote →
      dropQuoted quote (body ++ rest) = rest → Shape rest .string (quote :: body)
  | template {body} : body.getLast? = some '\x60' → Shape rest .templateLiteral ('\x60' :: body)
  | pattern {body flags} : (∀ x ∈ flags, isIdentPart x = true) →
      ((body ++ '/' :: flags) ++ rest).head? ≠ some '/' → ((body ++ '/' :: flags) ++ rest).head? ≠ some '*' →
      dropPattern false ((body ++ '/' :: flags) ++ rest) = flags ++ rest →
      Shape rest .regex ('/' :: (body ++ '/' :: flags))
  | slash {r cs} : r ≠ .regex → r ≠ .templateLiteral → Lone cs → (cs ++ rest).head? ≠ some '/' →
      (cs ++ rest).head? ≠ some '*' → Shape rest r ('/' :: cs)

/-- Every word has its shape. -/
theorem shape_of_word {r : Rule} (h : (Token.word r cs).Stands language c d) : Shape d.rest r cs := by
  cases h with
  | @word _ _ q loud h =>
  have plain (word : isPlainWord r = true) : Shape q.place.rest r (c.upTo q.place) := by
    obtain ⟨cs, leads, ne, ink⟩ := ink_of_call word h
    rw [leads.upTo]
    refine .plain ?_ ne (lone_of_ink ink)
    rintro rfl
    cases word
  cases h with
  | silent quiet _ => simp [quiet] at loud
  | @call _ _ _ q _ h =>
  have tight : (Mode.outset.within (language.kind r)).atomicity ≠ .normal := by
    rcases loud with kind | kind <;> simp [kind, Mode.within]
  have jumps {w : String} (ink : w.toList.all isInk = true) (ne : w.toList ≠ []) (other : r ≠ .templateLiteral)
      (h : Reads language (Mode.outset.within (language.kind r)) (.once (jump w)) c (some q)) :
      Shape q.place.rest r (c.upTo q.place) := by
    obtain ⟨cs, leads, lone⟩ := lone_of_jump tight ink h
    rw [leads.upTo]
    exact .plain other (List.append_ne_nil_of_left_ne_nil ne cs) lone
  have nonempty (consuming : isConsuming r = true) {cs : List Char} (leads : c.Leads cs q.place) : cs ≠ [] := by
    have lt := h.index_lt consumes_body (consumes_body r consuming)
    rintro rfl
    rw [leads.2, List.length_nil] at lt
    exact absurd lt (Nat.lt_irrefl _)
  -- Five rules have tokens that the scan looks into; of any other the token is ink.
  cases r with
  | string =>
    cases h with
    | choiceFirst h =>
      obtain ⟨body, leads, last, ends⟩ := quoted_reads '"' rfl (by decide) tight h
      rw [leads.upTo]
      exact .quoted rfl last ends
    | choiceSecond _ h =>
      obtain ⟨body, leads, last, ends⟩ := quoted_reads '\'' rfl (by decide) tight h
      rw [leads.upTo]
      exact .quoted rfl last ends
  | templateLiteral =>
    obtain ⟨body, leads, last⟩ := template_reads tight h
    rw [leads.upTo]
    exact .template last
  | regex =>
    obtain ⟨body, flags, leads, parts, noSlash, noStar, ends⟩ := regex_reads tight h
    rw [leads.upTo]
    exact .pattern parts noSlash noStar ends
  | assignmentOperator =>
    obtain ⟨cs, leads, spelled⟩ := h.spells tight
    have ne := nonempty rfl leads
    rw [leads.upTo]
    rcases assignment_of_spells spelled with ink | rfl
    · exact .plain (by decide) ne (lone_of_ink ink)
    · exact .slash (by decide) (by decide) (lone_of_ink (List.all_eq_true.1 (by decide))) (by simp) (by simp)
  | binaryOperator level =>
    cases level with
    | multiplicative =>
      obtain ⟨cs, leads, ink | ⟨rfl, noSlash, noStar⟩⟩ := slash_reads tight h
      all_goals rw [leads.upTo]
      · exact .plain (by decide) (nonempty rfl leads) (lone_of_ink ink)
      · exact .slash (by decide) (by decide) .nil noSlash noStar
    | _ => exact plain rfl
  | breakStatement => exact jumps (by decide) (by decide) (by decide) h
  | continueStatement => exact jumps (by decide) (by decide) (by decide) h
  | _ =>
    first
    | exact plain rfl
    | simp [language, kind] at loud

end Shapes

section Signs

/-- A bracket, or code that stands for itself. -/
def isSign (cs : List Char) : Bool :=
  !cs.isEmpty && (cs.all isInk || (openers ++ enders).any fun x => cs = [x])

/-- The rules that are not only tried inside a token. -/
def isOutside (r : Rule) : Bool :=
  r ≠ .templateHolePart

/-- What is read with gaps asks for such texts only. -/
lemma asks_body (r : Rule) (outside : isOutside r = true)
    (kind : language.kind r = .normal ∨ language.kind r = .silent) :
    (language.body r).asks isSign isOutside = true := by
  have each : ∀ r ∈ Rule.all, isOutside r = true → Grammar.kind r = .normal ∨ Grammar.kind r = .silent →
      (body r).asks isSign isOutside = true := by decide +kernel
  exact each r r.mem_all outside kind

/-- A sign is a bracket, or stands for itself. -/
lemma isSign_of_mem {k : Peg.Task Rule} {ts : List (Token Rule)} (h : Lexes language k c q ts)
    (outside : k.expr.asks isSign isOutside = true) (mem : .sign cs ∈ ts) :
    (cs ≠ [] ∧ Lone cs) ∨ ∃ x ∈ openers ++ enders, cs = [x] := by
  have sign := h.sign_of_mem asks_body outside mem
  simp only [isSign, Bool.and_eq_true, Bool.not_eq_true', List.isEmpty_eq_false_iff, Bool.or_eq_true,
    List.any_eq_true, decide_eq_true_eq] at sign
  obtain ⟨ne, ink | bracket⟩ := sign
  · exact .inl ⟨ne, lone_of_ink (List.all_eq_true.1 ink)⟩
  · exact .inr bracket

end Signs

section Brackets

variable {ts us : List (Token Rule)} {due due' behind : List Char}

/-- The bracket that closes what another one opens. -/
def partner (x : Char) : Char :=
  if x = '(' then ')' else if x = '[' then ']' else '\x7d'

/-- The brackets that are due after a token, the next one first, when some are due before it; none if the
token is a bracket that is not the next one. -/
def due? (due : List Char) : Token Rule → Option (List Char)
  | .sign [x] =>
    if x ∈ openers then some (partner x :: due)
    else if x ∈ enders then if due.head? = some x then some due.tail else none
    else some due
  | _ => some due

/-- The brackets that are due after some tokens. -/
def dues? (due : List Char) (ts : List (Token Rule)) : Option (List Char) :=
  ts.foldlM due? due

/-- The brackets that are due after what an expression asks for itself; none if it may be more or less. -/
def balance? (due : List Char) : Expr Rule → Option (List Char)
  | .text cs => due? due (.sign cs)
  | .char _ => none
  | .seq a b => (balance? due a).bind (balance? · b)
  | .choice a b => if balance? due a = balance? due b then balance? due a else none
  | .opt a | .star a => if balance? due a = some due then some due else none
  | .call r => if isOutside r then some due else none
  | _ => some due

@[simp] lemma dues?_nil : dues? due [] = some due := rfl

@[simp] lemma dues?_cons (t : Token Rule) (ts : List (Token Rule)) :
    dues? due (t :: ts) = (due? due t).bind (dues? · ts) := rfl

lemma dues?_append : dues? due (ts ++ us) = (dues? due ts).bind (dues? · us) := by
  rw [dues?, List.foldlM_append]
  rfl

/-- What is due further on does not matter for a bracket that is matched. -/
lemma due?_append {t : Token Rule} (h : due? due t = some due') :
    due? (due ++ behind) t = some (due' ++ behind) := by
  unfold due? at h ⊢
  split at h
  · split at h
    next opens =>
      cases h
      simp [opens]
    next opens =>
    split at h
    next closes =>
      split at h
      next next =>
        cases h
        obtain ⟨rest, rfl⟩ := List.head?_eq_some_iff.1 next
        simp [opens, closes]
      · cases h
    next closes =>
      cases h
      simp [opens, closes]
  · cases h
    rfl

/-- What may be left out or repeated leaves nothing due. -/
lemma eq_of_balance? {o : Option (List Char)} (h : (if o = some due then some due else none) = some due') :
    o = some due ∧ due' = due := by
  split at h
  next same =>
    cases h
    exact ⟨same, rfl⟩
  next => cases h

lemma eq_of_balance?_call {r : Rule} (h : balance? due (.call r) = some due') :
    isOutside r = true ∧ due' = due := by
  rw [balance?] at h
  split at h
  next outside =>
    cases h
    exact ⟨outside, rfl⟩
  next => cases h

/-- The tokens of a match leave the brackets due that its expression says. -/
lemma dues?_of_lexes {k : Peg.Task Rule} (h : Lexes language k c q ts)
    (balanced : balance? due k.expr = some due') :
    dues? (due ++ behind) ts = some (due' ++ behind) := by
  -- Each rule closes what it opens, so a match of one leaves as many brackets due as there were.
  have each : ∀ r ∈ Rule.all, kind r = .normal → balance? [] (body r) = some [] := by decide +kernel
  induction h generalizing due due' behind with
  | text _ =>
    rw [dues?_cons, due?_append balanced]
    rfl
  | char _ => cases balanced
  | seq _ _ _ ih₁ ih₂ ih₃ =>
    obtain ⟨mid, first, second⟩ := Option.bind_eq_some_iff.1 balanced
    rw [dues?_append, dues?_append, ih₁ first, Option.bind_some, ih₂ rfl, Option.bind_some, ih₃ second]
  | choiceFirst _ ih =>
    rw [Task.expr, balance?] at balanced
    split at balanced
    · exact ih balanced
    · cases balanced
  | choiceSecond _ _ ih =>
    rw [Task.expr, balance?] at balanced
    split at balanced
    next same => exact ih (same ▸ balanced)
    · cases balanced
  | optSome _ ih =>
    obtain ⟨same, rfl⟩ := eq_of_balance? balanced
    exact ih same
  | starSome _ _ ih₁ ih₂ =>
    obtain ⟨same, rfl⟩ := eq_of_balance? balanced
    rw [dues?_append, ih₁ same, Option.bind_some, ih₂ balanced]
  | againSome _ _ _ ih₁ ih₂ ih₃ =>
    obtain ⟨same, rfl⟩ := eq_of_balance? balanced
    rw [dues?_append, dues?_append, ih₁ rfl, Option.bind_some, ih₂ same, Option.bind_some, ih₃ balanced]
  | @silent r _ _ _ quiet _ _ =>
    obtain ⟨outside, -⟩ := eq_of_balance?_call balanced
    cases r
    case templateHolePart => exact absurd outside (by decide)
    all_goals cases quiet
  | @normal r c q ts kind _ ih =>
    obtain ⟨-, rfl⟩ := eq_of_balance?_call balanced
    have own : dues? ([] ++ (due' ++ behind)) ts = some ([] ++ (due' ++ behind)) :=
      ih (each _ (Rule.mem_all _) kind)
    exact own
  | word _ _ =>
    obtain ⟨-, rfl⟩ := eq_of_balance?_call balanced
    rfl
  | optNone _ | starNone _ | againNone _ _ =>
    obtain ⟨-, rfl⟩ := eq_of_balance? balanced
    rfl
  | _ =>
    cases balanced
    rfl

end Brackets

section Clear

/-- The characters of which none begins a comment, a regular expression or a template, or is a blank only for
the grammar. -/
def isClear (x : Char) : Bool :=
  x != '/' && x != '#' && x != '\x60' && (!isBlank x || Text.isAsciiBlank x)

/-- A gap of such characters is made of blanks. -/
lemma spacing_of_clear {rest gap : List Char} (h : IsGap language gap)
    (clear : ∀ x ∈ gap, isClear x = true) : Spacing rest gap := by
  obtain ⟨pieces, rfl, each⟩ := h
  induction pieces with
  | nil => exact .nil
  | cons piece pieces ih =>
    obtain ⟨here, others⟩ := List.forall_mem_append.1 clear
    have blanks : Spacing rest pieces.flatten := ih (fun xs hxs => each xs (List.mem_cons_of_mem _ hxs)) others
    have starts {x : Char} {w cs : List Char} (no : isClear x = false) (split : piece = x :: w ++ cs) :
        False := by
      have yes := here x (by simp [split])
      rw [no] at yes
      cases yes
    rcases each piece List.mem_cons_self with ⟨x, rfl, blank⟩ | ⟨_, cs, split, rfl, -⟩ |
      ⟨_, cs, split, rfl, -⟩ | ⟨_, cs, split, rfl, -⟩
    · have ascii := here x (List.mem_singleton_self x)
      simp only [isClear, blank, Bool.not_true, Bool.false_or, Bool.and_eq_true] at ascii
      exact .blank ascii.2 blanks
    all_goals exact (starts (by decide) split).elim

lemma spacing_of_stands {rest gap : List Char} (h : (Token.gap gap).Stands language c d)
    (clear : ∀ x ∈ gap, isClear x = true) : Spacing rest gap := by
  cases h with
  | gap reads =>
    obtain ⟨cs, leads, isGap⟩ := reads.isGap
    rw [leads.upTo] at clear ⊢
    exact spacing_of_clear isGap clear

end Clear

section Programs

/-- Nothing is left behind the end of the input. -/
lemma rest_of_finish (h : Reads language m (.once .finish) c (some q)) : q.place.rest = [] := by
  cases h with
  | finish => rfl

/-- A program is read up to the end of its text. -/
lemma rest_of_program (h : Reads language .outset (.once (body .program)) c (some q)) : q.place.rest = [] := by
  cases h with
  | seq _ _ h =>
  cases h with
  | seq _ _ h =>
  cases h with
  | silent quiet _ => cases quiet
  | @call _ _ _ q _ h => exact rest_of_finish (q := q) h

/-- The tokens of a program: they are read one after the other from the beginning of its text to the end, a
sign is a bracket or stands for itself, and the brackets are closed by their partners. -/
theorem exists_tokens {s : Script} {t : Peg.Tree Rule} (h : s.match? = .ok t) :
    ∃ ts d, t.Lexed language s.content.toList ts ∧ Row language ts ⟨0, s.content.toList⟩ d ∧ d.rest = [] ∧
      (∀ cs, .sign cs ∈ ts → (cs ≠ [] ∧ Lone cs) ∨ ∃ x ∈ openers ++ enders, cs = [x]) ∧
      dues? [] ts = some [] := by
  obtain ⟨q, reads, trees⟩ := Script.match?_eq_ok.1 h
  obtain ⟨ts, lexes⟩ := reads.exists_lexes
  cases lexes with
  | silent quiet _ => cases quiet
  | word kind _ => rcases kind with kind | kind <;> cases kind
  | @normal _ _ q _ _ lexes =>
    obtain rfl := (List.cons.inj trees).1
    have inside : ∀ cs, .sign cs ∈ ts → _ := fun cs mem => isSign_of_mem lexes (by decide +kernel) mem
    have balanced : dues? ([] ++ []) ts = some ([] ++ []) := dues?_of_lexes lexes (by decide +kernel)
    exact ⟨ts, q.place, ⟨lexes.row.leads.upTo, .inl ⟨rfl, q, rfl, lexes⟩⟩, lexes.row,
      rest_of_program lexes.reads, inside, balanced⟩

end Programs

end ScriptTyping.Grammar
