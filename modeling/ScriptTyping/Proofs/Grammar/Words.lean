import Mathlib.Data.Bool.AllAny
import ScriptTyping.Proofs.Grammar.Preamble
import ScriptTyping.Proofs.Grammar.Ranking
import ScriptTyping.Proofs.Peg.Forecast

/-!
# Reading words

A `Word` is a text that an identifier may be made of, and a `Name` is one that is not reserved. Where a
word stands whole, it is read to its end (`Word.reads_property`, `Name.reads_identifier`), and the rules
that want another word do not match there (`wholeWord_fails`). Blanks are skipped up to the place where
something else begins (`gap_of_blanks`).
-/

namespace ScriptTyping.Peg.Cursor

/-- No character of a class follows. -/
def Stops (p : Char → Bool) (c : Cursor) : Prop :=
  ∀ x xs, c.rest = x :: xs → p x = false

lemma Stops.mono {p p' : Char → Bool} {c : Cursor} (h : c.Stops p)
    (le : ∀ x, p' x = true → p x = true) : c.Stops p' := by
  intro x xs rest
  cases e : p' x with
  | false => rfl
  | true =>
    have := h x xs rest
    rw [le x e] at this
    cases this

lemma stops_of_nil {p : Char → Bool} {c : Cursor} (rest : c.rest = []) : c.Stops p := by
  intro x xs e
  rw [rest] at e
  cases e

lemma stops_of_cons {p : Char → Bool} {c : Cursor} {x : Char} {xs : List Char}
    (rest : c.rest = x :: xs) (hx : p x = false) : c.Stops p := by
  intro y ys e
  rw [rest] at e
  cases e
  exact hx

end ScriptTyping.Peg.Cursor

namespace ScriptTyping.Grammar
open Peg Peg.Expr

section Classes

variable {m : Mode} {c d : Cursor} {p : Char → Bool}

/-- An expression that reads one character of a class, and nothing else. -/
structure IsSingle (e : Expr Rule) (p : Char → Bool) : Prop where
  reads : ∀ {m : Mode} {c d : Cursor} {x : Char}, p x = true → c.Leads [x] d →
    ∃ q, Reads language m (.once e) c (some q) ∧ q.place = d
  fails : ∀ {m : Mode} {c : Cursor}, c.Stops p → Reads language m (.once e) c none

lemma char_fails (stops : c.Stops p) : Reads language m (.once (.char p)) c none := by
  obtain ⟨i, _ | ⟨x, xs⟩⟩ := c
  · exact .charEnd
  · exact .charFail (stops x xs rfl)

lemma isSingle_char (p : Char → Bool) : IsSingle (.char p) p where
  reads hx leads := ⟨_, .char_of_leads hx leads, rfl⟩
  fails stops := char_fails stops

/-- A text of one character is not read where another one stands. -/
lemma text_single_fails {x : Char} (stops : c.Stops (· == x)) :
    Reads language m (.once (.text [x])) c none := by
  obtain ⟨i, _ | ⟨y, ys⟩⟩ := c
  · exact .textFail rfl
  · refine text_fails rfl ?_
    rintro rfl
    simpa using stops x ys rfl

lemma IsSingle.orText {e : Expr Rule} (h : IsSingle e p) (x : Char) :
    IsSingle (.choice e (.text [x])) fun y => p y || y == x where
  reads {m c d y} hy leads := by
    by_cases class' : p y = true
    · obtain ⟨q, reads, place⟩ := h.reads (m := m) class' leads
      exact ⟨q, .choiceFirst reads, place⟩
    · obtain rfl : y = x := by simpa [class'] using hy
      obtain ⟨stop, reads⟩ := Reads.text_of_leads (g := language) (m := m) leads
      refine ⟨_, .choiceSecond (h.fails ?_) reads, rfl⟩
      exact Cursor.stops_of_cons leads.1 (by simpa using class')
  fails stops :=
    .choiceSecond (h.fails (stops.mono fun _ hx => by simp [hx]))
      (text_single_fails (stops.mono fun _ hx => by simp [hx]))

/-- Characters of a class are read up to the first other one. -/
lemma IsSingle.star {e : Expr Rule} (h : IsSingle e p) (tight : m.atomicity ≠ .normal)
    {cs : List Char} (all : ∀ x ∈ cs, p x = true) (leads : c.Leads cs d) (stops : d.Stops p) :
    ∃ q, Reads language m (.once (.star e)) c (some q) ∧ q.place = d := by
  induction cs generalizing c with
  | nil =>
    obtain rfl : c = d := by simpa [Cursor.skip?] using Cursor.skip?_of_leads leads
    exact ⟨_, .starNone (h.fails stops), rfl⟩
  | cons x xs ih =>
    obtain ⟨c₁, one, more⟩ : ∃ c₁, c.Leads [x] c₁ ∧ c₁.Leads xs d := Cursor.Leads.split leads
    obtain ⟨q₁, first, rfl⟩ := h.reads (m := m) (all x List.mem_cons_self) one
    obtain ⟨q₂, others, rfl⟩ := ih (fun y hy => all y (List.mem_cons_of_mem x hy)) more
    exact Reads.star_step tight first others

end Classes

/-- Whether a text is a word. -/
def isWord : List Char → Bool
  | x :: xs => isIdentStart x && xs.all isIdentPart
  | [] => false

/-- A text that an identifier may be made of. -/
structure Word where
  text : List Char
  isWord : isWord text = true

/-- A word that is not reserved. -/
structure Name extends Word where
  free : text ∉ reservedWords.map String.toList

lemma isIdentPart_of_isIdentStart {x : Char} (h : isIdentStart x = true) :
    isIdentPart x = true := by
  simp only [isIdentStart, Bool.or_eq_true, beq_iff_eq] at h
  rcases h with (h | rfl) | rfl
  · simp [isIdentPart, Text.isXidContinue_of_isXidStart h]
  · decide
  · decide

namespace Word

variable {w : Word} {m : Mode} {c d : Cursor}

lemma exists_cons (w : Word) : ∃ x xs, w.text = x :: xs ∧ isIdentStart x = true ∧
    ∀ y ∈ xs, isIdentPart y = true := by
  obtain ⟨_ | ⟨x, xs⟩, h⟩ := w
  · cases h
  · simp only [Grammar.isWord, Bool.and_eq_true, List.all_eq_true] at h
    exact ⟨x, xs, rfl, h.1, h.2⟩

lemma isIdentPart_of_mem {x : Char} (hx : x ∈ w.text) : isIdentPart x = true := by
  obtain ⟨y, ys, text, start, part⟩ := w.exists_cons
  rw [text] at hx
  rcases List.mem_cons.1 hx with rfl | hx
  · exact isIdentPart_of_isIdentStart start
  · exact part x hx

lemma notMem (w : Word) {x : Char} (foreign : isIdentPart x = false) : x ∉ w.text := by
  intro mem
  rw [w.isIdentPart_of_mem mem] at foreign
  cases foreign

/-- A word that stands whole is read to its end. -/
lemma reads_property (tight : m.atomicity ≠ .normal) (leads : c.Leads w.text d)
    (stops : d.Stops isIdentPart) :
    ∃ q, Reads language m (.once propertyIdentifier) c (some q) ∧ q.place = d := by
  obtain ⟨x, xs, text, start, part⟩ := w.exists_cons
  rw [text] at leads
  obtain ⟨c₁, one, more⟩ : ∃ c₁, c.Leads [x] c₁ ∧ c₁.Leads xs d := Cursor.Leads.split leads
  obtain ⟨q, others, rfl⟩ := (isSingle_char isIdentPart).star tight part more stops
  exact ⟨_, .seq (.char_of_leads start one) (.tight tight) others, rfl⟩

end Word

section WholeWords

variable {m : Mode} {c d : Cursor} {words : List String}

/-- Of several texts the first one that stands at a place is read, or none. -/
lemma reads_words (words : List String) :
    Reads language m (.once (oneOf (words.map token))) c none ∨
      ∃ w ∈ words, ∃ q, Reads language m (.once (oneOf (words.map token))) c (some q) ∧
        c.Leads w.toList q.place := by
  induction words with
  | nil => exact .inl (.notAheadFail .empty)
  | cons w ws ih =>
    have first : Reads language m (.once (token w)) c none ∨
        ∃ q, Reads language m (.once (token w)) c (some q) ∧ c.Leads w.toList q.place := by
      cases skip : c.skip? w.toList with
      | none => exact .inl (.textFail skip)
      | some e => exact .inr ⟨_, .text skip, Cursor.leads_of_skip? skip⟩
    cases ws with
    | nil =>
      rcases first with fails | ⟨q, reads, leads⟩
      · exact .inl fails
      · exact .inr ⟨w, List.mem_cons_self, q, reads, leads⟩
    | cons v vs =>
      rcases first with fails | ⟨q, reads, leads⟩
      · rcases ih with others | ⟨u, hu, q, reads, leads⟩
        · exact .inl (.choiceSecond fails others)
        · exact .inr ⟨u, List.mem_cons_of_mem w hu, q, .choiceSecond fails reads, leads⟩
      · exact .inr ⟨w, List.mem_cons_self, q, .choiceFirst reads, leads⟩

/-- Where a text that may go on an identifier stands whole, another one of such a text does not end. -/
lemma not_stops_of_leads {cs ds : List Char} {e : Cursor} (all : ∀ x ∈ cs, isIdentPart x = true)
    (leads : c.Leads cs d) (stops : d.Stops isIdentPart) (all' : ∀ x ∈ ds, isIdentPart x = true)
    (leads' : c.Leads ds e) (ne : ds ≠ cs) :
    ∃ x xs, e.rest = x :: xs ∧ isIdentPart x = true := by
  obtain ⟨rest, -⟩ := leads
  obtain ⟨rest', -⟩ := leads'
  have both : cs ++ d.rest = ds ++ e.rest := rest.symm.trans rest'
  rcases List.append_eq_append_iff.1 both with ⟨as, longer, after⟩ | ⟨as, shorter, after⟩
  · rcases as with _ | ⟨a, as⟩
    · exact absurd (by simpa using longer) ne
    · have stop := stops a (as ++ e.rest) after
      rw [all' a (by simp [longer])] at stop
      cases stop
  · rcases as with _ | ⟨a, as⟩
    · exact absurd (by simpa using shorter.symm) ne
    · exact ⟨a, as ++ d.rest, after, all a (by simp [shorter])⟩

variable {cs : List Char}

/-- Where a text stands whole, other words do not. -/
lemma wholeWord_fails (tight : m.atomicity ≠ .normal)
    (parts : words.all (fun w => w.toList.all isIdentPart) = true)
    (all : ∀ x ∈ cs, isIdentPart x = true) (free : cs ∉ words.map String.toList)
    (leads : c.Leads cs d) (stops : d.Stops isIdentPart) :
    Reads language m (.once (wholeWord words)) c none := by
  rcases reads_words words with fails | ⟨w, hw, q, reads, leads'⟩
  · exact .seqFirst fails
  · have all' : ∀ x ∈ w.toList, isIdentPart x = true :=
      List.all_eq_true.1 (List.all_eq_true.1 parts w hw)
    have ne : w.toList ≠ cs := by
      rintro rfl
      exact free (List.mem_map_of_mem hw)
    obtain ⟨x, xs, rest, part⟩ := not_stops_of_leads all leads stops all' leads' ne
    have next : q.place.Leads [x] ⟨q.place.index + 1, xs⟩ := ⟨rest, rfl⟩
    exact .seqSecond reads (.tight tight) (.notAheadFail (.char_of_leads part next))

/-- Where a text stands whole, a statement that begins with another word does not. -/
lemma jump_fails {w : String} (tight : m.atomicity ≠ .normal)
    (part : w.toList.all isIdentPart = true) (all : ∀ x ∈ cs, isIdentPart x = true)
    (ne : cs ≠ w.toList) (leads : c.Leads cs d) (stops : d.Stops isIdentPart) :
    Reads language m (.once (jump w)) c none := by
  cases skip : c.skip? w.toList with
  | none => exact .seqFirst (.textFail skip)
  | some e =>
    have leads' := Cursor.leads_of_skip? skip
    obtain ⟨x, xs, rest, part⟩ := not_stops_of_leads all leads stops
      (List.all_eq_true.1 part) leads' ne.symm
    have next : e.Leads [x] ⟨e.index + 1, xs⟩ := ⟨rest, rfl⟩
    exact .seqSecond (.text skip) (.tight tight)
      (.seqFirst (.notAheadFail (.char_of_leads part next)))

end WholeWords

section Gaps

variable {m : Mode} {c d : Cursor}

/-- A place where no gap begins. -/
def Shut (c : Cursor) : Prop :=
  ∀ m : Mode, m.atomicity ≠ .normal → Reads language m (.once blank) c none

lemma shut_of_nil (rest : c.rest = []) : Shut c := by
  intro m tight
  have fits : Outlook.Fits { known := [], missed := [], next := none } language [] :=
    ⟨by simp, by simp⟩
  refine fits.fails (n := 30) (by simpa using rest) ?_
  rw [Mode.isTight_iff.2 tight]
  decide

/-- A gap begins only at a blank, and at a slash or a number sign that something else follows. -/
lemma shut_of_cons {x : Char} {xs : List Char} (rest : c.rest = x :: xs)
    (solid : isBlank x = false) (sign : x ≠ '#')
    (slash : x = '/' → ∀ y ys, xs = y :: ys → y ≠ '/' ∧ y ≠ '*') : Shut c := by
  intro m tight
  have two {y : Char} (h : x = '/' → ∀ z zs, xs = z :: zs → z ≠ y) :
      Reads language m (.once (.text ['/', y])) c none := by
    obtain ⟨i, r⟩ := c
    cases rest
    by_cases e : '/' = x
    · refine .textFail ?_
      rw [Cursor.skip?, if_pos e]
      rcases xs with _ | ⟨z, zs⟩
      · rfl
      · exact Cursor.skip?_eq_none rfl (h e.symm z zs rfl).symm
    · exact text_fails rfl e
  refine .choiceSecond (char_fails (Cursor.stops_of_cons rest solid)) ?_
  refine .choiceSecond (.seqFirst (two fun e z zs h => (slash e z zs h).2)) ?_
  refine .choiceSecond (.seqFirst (two fun e z zs h => (slash e z zs h).1)) ?_
  exact .seqFirst (text_fails rest sign.symm)

lemma skipped_blanks {cs : List Char} (tight : m.atomicity ≠ .normal)
    (blanks : ∀ x ∈ cs, isBlank x = true) : Skipped m cs := by
  induction cs with
  | nil =>
    intro c d q leads reads
    obtain rfl : c = d := by simpa [Cursor.skip?] using Cursor.skip?_of_leads leads
    exact ⟨q, reads, rfl⟩
  | cons x xs ih =>
    have first : Skipped m [x] := skipped_blank tight (blanks x List.mem_cons_self)
    exact first.append (ih fun y hy => blanks y (List.mem_cons_of_mem x hy))

/-- Blanks are skipped up to the place where no more gap begins. -/
lemma gap_of_blanks {cs : List Char} (normal : m.atomicity = .normal)
    (blanks : ∀ x ∈ cs, isBlank x = true) (leads : c.Leads cs d) (shut : Shut d) :
    ∃ q, Reads language m (.once .gap) c (some q) ∧ q.place = d := by
  have tight : Atomicity.atomic ≠ .normal := by simp
  obtain ⟨q, reads, place⟩ := skipped_blanks (m := { m with atomicity := .atomic }) tight blanks _ _ _
    leads (.starNone (shut _ tight))
  exact ⟨_, .gap normal reads, place⟩

end Gaps

/-- A text without braces and arrows. Functions, and whatever else has a body in braces, do not stand in
it. -/
structure Plain (cs : List Char) : Prop where
  brace : ¬ ['\x7b'] <:+: cs
  arrow : ¬ ['=', '>'] <:+: cs

namespace Plain

variable {c d : Cursor} {cs : List Char}

lemma nil : Plain [] :=
  ⟨by decide, by decide⟩

lemma cons {x : Char} {z : List Char} (brace : x ≠ '\x7b') (arrow : x = '=' → z.head? ≠ some '>')
    (h : Plain z) : Plain (x :: z) := by
  refine ⟨fun mem => ?_, fun mem => ?_⟩
  · rcases List.infix_cons_iff.1 mem with first | later
    · exact brace (List.cons_prefix_cons.1 first).1.symm
    · exact h.brace later
  · rcases List.infix_cons_iff.1 mem with first | later
    · obtain ⟨rfl, next⟩ := List.cons_prefix_cons.1 first
      refine arrow rfl ?_
      cases z with
      | nil => simp at next
      | cons y ys => rw [(List.cons_prefix_cons.1 next).1]; rfl
    · exact h.arrow later

/-- A text without a brace may be put before a plain one if it has no equals sign, or if only its first
character may end an arrow. -/
lemma append {z : List Char} (h : Plain z) (brace : '\x7b' ∉ cs)
    (seam : '=' ∉ cs ∨ '>' ∉ (cs ++ z.head?.toList).tail) : Plain (cs ++ z) := by
  induction cs with
  | nil => exact h
  | cons x xs ih =>
    refine cons (fun e => brace (e ▸ List.mem_cons_self)) (fun e => ?_) (ih ?_ ?_)
    · rcases seam with free | free
      · exact absurd (e ▸ List.mem_cons_self) free
      · intro next
        refine free ?_
        cases xs with
        | nil => simpa using next
        | cons y ys => simp_all
    · exact fun mem => brace (List.mem_cons_of_mem x mem)
    · exact seam.imp (fun free mem => free (List.mem_cons_of_mem x mem))
        fun free mem => free (List.mem_of_mem_tail mem)

lemma leads (h : Plain c.rest) (leads : c.Leads cs d) : Plain d.rest := by
  obtain ⟨rest, -⟩ := leads
  rw [rest] at h
  exact ⟨fun e => h.brace (e.trans (List.suffix_append _ _).isInfix),
    fun e => h.arrow (e.trans (List.suffix_append _ _).isInfix)⟩

lemma fails_of_requires {r : Rule} {w : List Char} {m : Mode} {n : Nat} (free : ¬ w <:+: c.rest)
    (requires : Requires language w n (.call r) = true) :
    Reads language m (.once (.call r)) c none := by
  obtain ⟨o, reads⟩ := ranking.exists_reads (m := m) (e := .call r) (c := c)
    (by simp [Guarded, ranking.rank_lt])
  cases o with
  | none => exact reads
  | some q => exact absurd (reads.contains_of_requires requires) free

lemma functionDeclaration_fails {m : Mode} (h : Plain c.rest) :
    Reads language m (.once (.call .functionDeclaration)) c none :=
  fails_of_requires (n := 20) h.brace (by decide)

lemma functionExpression_fails {m : Mode} (h : Plain c.rest) :
    Reads language m (.once (.call .functionExpression)) c none :=
  fails_of_requires (n := 20) h.brace (by decide)

lemma arrowFunction_fails {m : Mode} (h : Plain c.rest) :
    Reads language m (.once (.call .arrowFunction)) c none :=
  fails_of_requires (n := 20) h.arrow (by decide)

end Plain

section Names

variable {m : Mode} {c d : Cursor} {n : Name}

/-- Where neither a digit nor a point stands, no number does. -/
lemma number_fails (stops : c.Stops fun x => x.isDigit || x == '.') :
    Reads language m (.once (.call .number)) c none := by
  have digit (m : Mode) : Reads language m (.once digit) c none :=
    char_fails (stops.mono fun x hx => by simp [hx])
  have point (m : Mode) : Reads language m (.once (token ".")) c none :=
    text_single_fails (x := '.') (stops.mono fun x hx => by simp [hx])
  have zero (m : Mode) : Reads language m (.once (token "0")) c none := by
    refine text_single_fails (x := '0') (stops.mono fun x hx => ?_)
    obtain rfl : x = '0' := by simpa using hx
    rfl
  refine .callFail (by decide) (.seqFirst ?_)
  refine .choiceSecond (.seqFirst (zero _)) (.choiceSecond (.seqFirst (zero _))
    (.choiceSecond (.seqFirst (zero _)) ?_))
  exact .seqFirst (.choiceSecond (.seqFirst (digit _)) (.seqFirst (point _)))

/-- Where no digit stands, no integer with the mark of arbitrary precision does. -/
lemma bigint_fails (stops : c.Stops Char.isDigit) :
    Reads language m (.once (.call .bigint)) c none :=
  .callFail (by decide) (.seqFirst (.seqFirst (char_fails stops)))

/-- The digits. -/
def digits : List Char :=
  "0123456789".toList

lemma mem_digits {x : Char} (h : x.isDigit = true) : x ∈ digits := by
  have each : ∀ n < 58, 48 ≤ n → Char.ofNat n ∈ digits := by decide
  simp only [Char.isDigit, Bool.and_eq_true, decide_eq_true_eq] at h
  have low : 48 ≤ x.toNat := h.1
  have high : x.toNat ≤ 57 := h.2
  rw [← Char.ofNat_toNat x]
  exact each _ (by omega) low

lemma isDigit_of_isIdentStart {x : Char} (h : isIdentStart x = true) : x.isDigit = false := by
  have each : ∀ y ∈ digits, isIdentStart y = false :=
    List.all_iff_forall_prop.mp (by decide)
  cases digit : x.isDigit with
  | false => rfl
  | true =>
    rw [each x (mem_digits digit)] at h
    cases h

namespace Name

/-- Where a name stands whole, reserved words do not. -/
lemma wholeWord_fails {words : List String} (n : Name) (tight : m.atomicity ≠ .normal)
    (reserved : words.all (· ∈ reservedWords) = true) (leads : c.Leads n.text d)
    (stops : d.Stops isIdentPart) : Reads language m (.once (wholeWord words)) c none := by
  have reserved : ∀ w ∈ words, w ∈ reservedWords := by simpa using reserved
  have parts : ∀ w ∈ reservedWords, w.toList.all isIdentPart = true := by decide
  refine Grammar.wholeWord_fails tight (List.all_eq_true.2 fun w hw => parts w (reserved w hw))
    (fun x hx => n.isIdentPart_of_mem hx) ?_ leads stops
  intro mem
  obtain ⟨w, hw, e⟩ := List.mem_map.1 mem
  exact n.free (List.mem_map.2 ⟨w, reserved w hw, e⟩)

lemma keyword_fails (n : Name) (leads : c.Leads n.text d) (stops : d.Stops isIdentPart) :
    Reads language m (.once (.call .keyword)) c none :=
  .callFail (by decide) (n.wholeWord_fails (by simp [kind, language, Mode.within]) (by decide) leads stops)

/-- A name that stands whole is read to its end. -/
lemma reads_identifier (tight : m.atomicity ≠ .normal) (leads : c.Leads n.text d)
    (stops : d.Stops isIdentPart) :
    ∃ q, Reads language m (.once identifier) c (some q) ∧ q.place = d := by
  obtain ⟨q, reads, place⟩ := n.toWord.reads_property tight leads stops
  exact ⟨_, .seq (.notAhead (n.keyword_fails leads stops)) (.tight tight) reads, place⟩

/-- What is known where a name stands: rules that want a reserved word or a digit do not match there, and
in a plain text neither do those that have a body. -/
def outlook : Outlook Rule where
  known := []
  missed := [.keyword, .declarationKind, .metaObject, .boolean, .null, .unaryOperator, .bigint, .number,
    .breakStatement, .continueStatement, .functionDeclaration, .functionExpression, .arrowFunction]
  next := some isIdentStart

lemma unaryOperator_fails (leads : c.Leads n.text d) (stops : d.Stops isIdentPart) :
    Reads language m (.once (.call .unaryOperator)) c none := by
  obtain ⟨x, xs, text, start, -⟩ := n.exists_cons
  have starts : Outlook.Fits { known := [], missed := [], next := some isIdentStart } language c.rest := by
    refine ⟨fun y ys rest => ?_, by simp⟩
    rw [leads.1, text] at rest
    cases rest
    exact start
  refine .callFail (by decide) (Reads.oneOf_append (fun e he => ?_)
    (n.wholeWord_fails (by simp [language, kind, Mode.within]) (by decide) leads stops))
  refine starts.fails (n := 2) rfl ?_
  have each : ∀ e ∈ ["++", "--", "+", "-", "!", "~"].map token, ∀ tight,
    Outlook.forecast language { known := [], missed := [], next := some isIdentStart } 2 tight e [] =
      .fails := by decide
  exact each e he _

/-- A statement with a keyword of its own does not stand where a name does. -/
lemma leave_fails {r : Rule} {w : String} (compound : kind r = .compound) (body_eq : body r = jump w)
    (reserved : w ∈ reservedWords) (leads : c.Leads n.text d) (stops : d.Stops isIdentPart) :
    Reads language m (.once (.call r)) c none := by
  have parts : ∀ w ∈ reservedWords, w.toList.all isIdentPart = true := by decide
  refine .callFail (by simp [language, compound]) ?_
  rw [show language.body r = jump w from body_eq]
  refine jump_fails (by simp [language, compound, Mode.within]) (parts w reserved)
    (fun x hx => n.isIdentPart_of_mem hx) ?_ leads stops
  intro e
  exact n.free (List.mem_map.2 ⟨w, reserved, e.symm⟩)

lemma missed (plain : Plain c.rest) (leads : c.Leads n.text d) (stops : d.Stops isIdentPart) :
    ∀ r ∈ outlook.missed, Reads language m (.once (.call r)) c none := by
  obtain ⟨x, xs, text, start, -⟩ := n.exists_cons
  have rest : c.rest = x :: (xs ++ d.rest) := by rw [leads.1, text, List.cons_append]
  have noDigit := isDigit_of_isIdentStart start
  have noPoint : (x == '.') = false := by
    cases e : x == '.' with
    | false => rfl
    | true =>
      obtain rfl := beq_iff_eq.1 e
      cases start
  have reserved {r : Rule} {ws : List String} (atomic : kind r = .atomic)
      (body_eq : body r = wholeWord ws) (reserved : ws.all (· ∈ reservedWords) = true) :
      Reads language m (.once (.call r)) c none := by
    refine .callFail (by simp [language, atomic]) ?_
    rw [show language.body r = wholeWord ws from body_eq]
    exact n.wholeWord_fails (by simp [language, atomic, Mode.within]) reserved leads stops
  simp only [outlook, List.forall_mem_cons]
  refine ⟨n.keyword_fails leads stops, ?declarationKind, ?metaObject, ?boolean, ?null,
    n.unaryOperator_fails leads stops, ?bigint, ?number, ?breakStatement, ?continueStatement,
    plain.functionDeclaration_fails, plain.functionExpression_fails, plain.arrowFunction_fails, by simp⟩
  case declarationKind => exact reserved rfl rfl (by decide)
  case metaObject => exact reserved rfl rfl (by decide)
  case boolean => exact reserved rfl rfl (by decide)
  case null => exact reserved rfl rfl (by decide)
  case bigint => exact bigint_fails (Cursor.stops_of_cons rest noDigit)
  case number => exact number_fails (Cursor.stops_of_cons rest (by rw [noDigit, noPoint]; rfl))
  case breakStatement => exact leave_fails (n := n) rfl rfl (by decide) leads stops
  case continueStatement => exact leave_fails (n := n) rfl rfl (by decide) leads stops

/-- Where a name stands whole in a plain text, what is known of it holds. -/
lemma fits {z : List Char} (n : Name) (plain : Plain (n.text ++ z))
    (stops : Cursor.Stops isIdentPart ⟨0, z⟩) : outlook.Fits language (n.text ++ z) := by
  refine ⟨fun y ys e => ?_, fun r hr m i => ?_⟩
  · obtain ⟨x, xs, text, start, -⟩ := n.exists_cons
    rw [text] at e
    cases e
    exact start
  · have leads : Cursor.Leads ⟨i, n.text ++ z⟩ n.text ⟨i + n.text.length, z⟩ := ⟨rfl, rfl⟩
    exact missed plain leads stops r hr

end Name

end Names

end ScriptTyping.Grammar
