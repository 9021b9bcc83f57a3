import ScriptTyping.Proofs.Grammar.Words

/-!
# Reading numbers

A number is read to its end where neither a point nor anything that may go on an identifier follows
(`reads_number`). An expression `Takes` a text up to a class if it reads the text and no more wherever no
character of the class comes next; numbers are put together from pieces of which each takes its part.
-/

namespace ScriptTyping.Grammar
open Peg Peg.Expr

/-- An expression reads a text where no character of a class follows. -/
structure Takes (e : Expr Rule) (cs : List Char) (p : Char → Bool) : Prop where
  reads : ∀ {m : Mode} {c d : Cursor}, m.atomicity ≠ .normal → c.Leads cs d → d.Stops p →
    ∃ q, Reads language m (.once e) c (some q) ∧ q.place = d

/-- Before a text that is followed by no character of the class `p`, none of the class `p'` follows. -/
def Meets (p' : Char → Bool) (ys : List Char) (p : Char → Bool) : Prop :=
  match ys with
  | [] => ∀ y, p' y = true → p y = true
  | y :: _ => p' y = false

/-- Nothing is of this class. -/
def never : Char → Bool :=
  fun _ => false

lemma meets_never {ys : List Char} {p : Char → Bool} : Meets never ys p := by
  cases ys with
  | nil => simp [Meets, never]
  | cons y ys => rfl

lemma Meets.stops {p p' : Char → Bool} {ys : List Char} {c d : Cursor} (h : Meets p' ys p)
    (leads : c.Leads ys d) (stops : d.Stops p) : c.Stops p' := by
  cases ys with
  | nil =>
    obtain ⟨rest, -⟩ := leads
    intro y zs e
    rw [rest, List.nil_append] at e
    cases e' : p' y with
    | false => rfl
    | true =>
      have := stops y zs e
      rw [h y e'] at this
      cases this
  | cons y ys => exact Cursor.stops_of_cons leads.1 h

namespace Takes

variable {a b : Expr Rule} {xs ys : List Char} {p p' : Char → Bool}

lemma seq (first : Takes a xs p') (second : Takes b ys p) (meets : Meets p' ys p) :
    Takes (.seq a b) (xs ++ ys) p := by
  refine ⟨fun {m c d} tight leads stops => ?_⟩
  obtain ⟨e, before, after⟩ := leads.split
  obtain ⟨q₁, reads₁, rfl⟩ := first.reads tight before (meets.stops after stops)
  obtain ⟨q₂, reads₂, rfl⟩ := second.reads tight after stops
  exact ⟨_, .seq reads₁ (.tight tight) reads₂, rfl⟩

/-- What takes its text wherever it stands may be followed by anything. -/
lemma andThen (first : Takes a xs never) (second : Takes b ys p) : Takes (.seq a b) (xs ++ ys) p :=
  first.seq second meets_never

lemma text : Takes (.text xs) xs p := by
  refine ⟨fun {m c d} _ leads _ => ?_⟩
  obtain ⟨stop, reads⟩ := Reads.text_of_leads (g := language) (m := m) leads
  exact ⟨_, reads, rfl⟩

lemma char {x : Char} (hx : p' x = true) : Takes (.char p') [x] p := by
  refine ⟨fun {m c d} _ leads _ => ?_⟩
  exact ⟨_, .char_of_leads hx leads, rfl⟩

lemma star (single : IsSingle a p') (all : ∀ x ∈ xs, p' x = true)
    (le : ∀ x, p' x = true → p x = true) : Takes (.star a) xs p := by
  refine ⟨fun {m c d} tight leads stops => ?_⟩
  exact single.star tight all leads (stops.mono le)

lemma optSome (h : Takes a xs p) : Takes (.opt a) xs p := by
  refine ⟨fun {m c d} tight leads stops => ?_⟩
  obtain ⟨q, reads, place⟩ := h.reads tight leads stops
  exact ⟨q, .optSome reads, place⟩

lemma optNone (fails : ∀ {m : Mode} {c : Cursor}, c.Stops p → Reads language m (.once a) c none) :
    Takes (.opt a) [] p := by
  refine ⟨fun {m c d} _ leads stops => ?_⟩
  obtain rfl : c = d := by simpa [Cursor.skip?] using Cursor.skip?_of_leads leads
  exact ⟨_, .optNone (fails stops), rfl⟩

lemma notAhead (fails : ∀ {m : Mode} {c : Cursor}, c.Stops p → Reads language m (.once a) c none) :
    Takes (.notAhead a) [] p := by
  refine ⟨fun {m c d} _ leads stops => ?_⟩
  obtain rfl : c = d := by simpa [Cursor.skip?] using Cursor.skip?_of_leads leads
  exact ⟨_, .notAhead (fails stops), rfl⟩

lemma choiceFirst (h : Takes a xs p) : Takes (.choice a b) xs p := by
  refine ⟨fun {m c d} tight leads stops => ?_⟩
  obtain ⟨q, reads, place⟩ := h.reads tight leads stops
  exact ⟨q, .choiceFirst reads, place⟩

lemma choiceSecond (fails : ∀ {m : Mode} {c d : Cursor}, m.atomicity ≠ .normal → c.Leads xs d →
    d.Stops p → Reads language m (.once a) c none) (h : Takes b xs p) : Takes (.choice a b) xs p := by
  refine ⟨fun {m c d} tight leads stops => ?_⟩
  obtain ⟨q, reads, place⟩ := h.reads tight leads stops
  exact ⟨q, .choiceSecond (fails tight leads stops) reads, place⟩

lemma mono (h : Takes a xs p') (le : ∀ x, p' x = true → p x = true) : Takes a xs p := by
  refine ⟨fun {m c d} tight leads stops => ?_⟩
  exact h.reads tight leads (stops.mono le)

end Takes

/-- Every character that an expression may match is of a class. -/
def MadeOf (p : Char → Bool) : Expr Rule → Prop
  | .text cs => ∀ x ∈ cs, p x = true
  | .char q => ∀ x, q x = true → p x = true
  | .seq a b | .choice a b => MadeOf p a ∧ MadeOf p b
  | .opt a | .star a => MadeOf p a
  | .call _ => False
  | _ => True

lemma forall_of_madeOf {p : Char → Bool} {e : Expr Rule} {cs : List Char} (made : MadeOf p e)
    (h : Spells e cs) : ∀ x ∈ cs, p x = true := by
  induction e generalizing cs with
  | text w =>
    cases h
    exact made
  | char q =>
    obtain ⟨x, rfl, hx⟩ := h
    simpa using made x hx
  | seq a b iha ihb =>
    obtain ⟨xs, ys, rfl, ha, hb⟩ := h
    exact List.forall_mem_append.2 ⟨iha made.1 ha, ihb made.2 hb⟩
  | choice a b iha ihb =>
    rcases h with ha | hb
    · exact iha made.1 ha
    · exact ihb made.2 hb
  | opt a ih =>
    rcases h with rfl | ha
    · simp
    · exact ih made ha
  | star a ih =>
    obtain ⟨css, rfl, each⟩ := h
    intro x hx
    obtain ⟨xs, hxs, hx⟩ := List.mem_flatten.1 hx
    exact ih made (each xs hxs) x hx
  | call r => exact made.elim
  | _ =>
    cases h
    simp

section Numbers

/-- What must not follow a number. -/
def goesOn (x : Char) : Bool :=
  isIdentPart x || x == '.'

lemma isIdentPart_of_isHexDigit {x : Char} (h : isHexDigit x = true) : isIdentPart x = true := by
  have each : ∀ n < 128, isHexDigit (Char.ofNat n) = true → isIdentPart (Char.ofNat n) = true := by
    decide
  have ascii : x.toNat < 128 := by
    simp only [isHexDigit, Char.isDigit, Bool.or_eq_true, Bool.and_eq_true, decide_eq_true_eq] at h
    rcases h with (h | h) | h
    all_goals
      have := h.2
      have : x.toNat ≤ 102 := Nat.le_trans this (by decide)
      omega
  have := each _ ascii
  rw [Char.ofNat_toNat] at this
  exact this h

lemma goesOn_of_isIdentPart {x : Char} (h : isIdentPart x = true) : goesOn x = true := by
  simp [goesOn, h]

lemma goesOn_of_isDigit {x : Char} (h : x.isDigit = true) : goesOn x = true :=
  goesOn_of_isIdentPart (isIdentPart_of_isHexDigit (by simp [isHexDigit, h]))

/-- Digits of a class with underscores among them. -/
lemma takes_digits {p : Char → Bool} {cs : List Char}
    (h : Spells (.star (.choice (.char p) (token "_")) : Expr Rule) cs)
    (part : ∀ x, p x = true → goesOn x = true) :
    Takes (.star (.choice (.char p) (token "_"))) cs goesOn := by
  refine .star ((isSingle_char p).orText '_') ?_ ?_
  · refine forall_of_spells_star (fun xs hxs => ?_) h
    rcases hxs with ⟨x, rfl, hx⟩ | rfl
    · exact ⟨x, rfl, by simp [hx]⟩
    · exact ⟨'_', rfl, by simp⟩
  · intro x hx
    rcases Bool.or_eq_true_iff.1 hx with hx | hx
    · exact part x hx
    · rw [beq_iff_eq.1 hx]
      decide

/-- A number with a prefix is read whole. -/
lemma takes_prefixed {letters cs : List Char} {p : Char → Bool}
    (part : ∀ x, p x = true → goesOn x = true) (h : Spells (prefixed letters p) cs) :
    Takes (prefixed letters p) cs goesOn := by
  obtain ⟨_, _, rfl, rfl, _, _, rfl, ⟨x, rfl, hx⟩, _, ds, rfl, ⟨y, rfl, hy⟩, hds⟩ := h
  exact .andThen .text (.andThen (.char hx) (.andThen (.char hy) (takes_digits hds part)))

/-- Where no letter of a base stands in second place, no number with a prefix does. -/
lemma prefixed_fails {letters cs : List Char} {p : Char → Bool} {m : Mode} {c d : Cursor}
    (tight : m.atomicity ≠ .normal) (free : ∀ x ∈ cs, x ∉ letters)
    (parts : ∀ x ∈ letters, goesOn x = true) (leads : c.Leads cs d) (stops : d.Stops goesOn) :
    Reads language m (.once (prefixed letters p)) c none := by
  cases skip : c.skip? ['0'] with
  | none => exact .seqFirst (.textFail skip)
  | some e =>
    have rest : c.rest = '0' :: e.rest := (Cursor.leads_of_skip? skip).1
    have second : e.Stops fun x => x ∈ letters := by
      intro y ys after
      refine decide_eq_false fun mem => ?_
      rw [leads.1, after] at rest
      rcases cs with _ | ⟨x, _ | ⟨x', cs⟩⟩
      · cases stops _ _ rest
      · have := stops y ys (List.cons.inj rest).2
        rw [parts y mem] at this
        cases this
      · cases rest
        exact free y (by simp) mem
    exact .seqSecond (.text skip) (.tight tight) (.seqFirst (char_fails second))

/-- An exponent is read whole. -/
lemma takes_exponent {cs : List Char} (h : Spells exponent cs) : Takes exponent cs goesOn := by
  rcases h with rfl | ⟨_, _, rfl, ⟨x, rfl, hx⟩, sign, _, rfl, hsign, _, ds, rfl, ⟨y, rfl, hy⟩, hds⟩
  · refine .optNone fun stops => .seqFirst (char_fails (stops.mono fun x hx => ?_))
    have marks : ∀ y ∈ ['e', 'E'], goesOn y = true := List.all_iff_forall_prop.mp (by decide)
    exact marks x (by simpa using hx)
  · have digits : Takes (plus digit) ([y] ++ ds) goesOn :=
      .andThen (.char hy) (.star (isSingle_char Char.isDigit) (forall_of_spells_star_char hds)
        fun _ => goesOn_of_isDigit)
    refine .optSome (.andThen (.char hx) ?_)
    rcases hsign with rfl | ⟨z, rfl, hz⟩
    · have unsigned : Takes (.opt (charIn ['+', '-'])) [] fun z => z ∈ ['+', '-'] :=
        .optNone fun stops => char_fails stops
      refine unsigned.seq digits ?_
      -- A digit is no sign.
      have free : ∀ z ∈ Grammar.digits, z ∉ ['+', '-'] :=
        List.all_iff_forall_prop.mp (by decide)
      exact decide_eq_false (free y (mem_digits hy))
    · exact .andThen (.optSome (.char hz)) digits

/-- The part of a decimal number before its exponent is read whole. -/
lemma takes_decimal {cs : List Char} (h : Spells decimal cs) : Takes decimal cs goesOn := by
  obtain ⟨whole, last, rfl, hwhole, hlast⟩ := h
  let digits (x : Char) : Bool := x.isDigit || x == '_'
  let inner (x : Char) : Bool := digits x || x == '.'
  have inner_goesOn : ∀ x, inner x = true → goesOn x = true := by
    intro x hx
    simp only [inner, digits, Bool.or_eq_true, beq_iff_eq] at hx
    rcases hx with (hx | rfl) | rfl
    · exact goesOn_of_isDigit hx
    · decide
    · decide
  -- The exponent begins with a letter, which no part in front of it takes.
  have meets : Meets inner last goesOn := by
    rcases hlast with rfl | ⟨_, _, rfl, ⟨x, rfl, hx⟩, -⟩
    · exact inner_goesOn
    · have marks : ∀ y ∈ ['e', 'E'], inner y = false := List.all_iff_forall_prop.mp (by decide)
      exact marks x (by simpa using hx)
  suffices mantissa : Takes _ whole inner from mantissa.seq (takes_exponent hlast) meets
  rcases hwhole with ⟨_, _, rfl, ⟨x, rfl, hx⟩, ds, fraction, rfl, hds, hfraction⟩ |
    ⟨_, _, rfl, rfl, _, ds, rfl, ⟨x, rfl, hx⟩, hds⟩
  · have all : ∀ x ∈ ds, digits x = true := by
      refine forall_of_spells_star (fun xs hxs => ?_) hds
      rcases hxs with ⟨y, rfl, hy⟩ | rfl
      · exact ⟨y, rfl, by simp [digits, hy]⟩
      · exact ⟨'_', rfl, by simp [digits]⟩
    have wholes : Takes (.star (.choice digit (token "_"))) ds digits :=
      .star ((isSingle_char Char.isDigit).orText '_') all fun _ hx => hx
    refine .choiceFirst (.andThen (.char hx) ?_)
    rcases hfraction with rfl | ⟨_, es, rfl, rfl, hes⟩
    · refine .seq wholes (.optNone fun stops => ?_) fun x hx => by simp [inner, hx]
      exact .seqFirst (text_single_fails (x := '.') (stops.mono fun y hy => by simp [inner, hy]))
    · refine .seq wholes (.optSome (.andThen .text (.star (isSingle_char _)
        (forall_of_spells_star_char hes) fun x hx => by simp [inner, digits, hx]))) ?_
      exact (by decide : digits '.' = false)
  · refine .choiceSecond (fun tight leads stops => ?_) ?_
    · exact .seqFirst (char_fails (Cursor.stops_of_cons leads.1 (by decide)))
    · exact .andThen .text (.andThen (.char hx) (.star (isSingle_char _)
        (forall_of_spells_star_char hds) fun x hx => by simp [inner, digits, hx]))

/-- The characters that a decimal number is made of. -/
def inDecimal (x : Char) : Bool :=
  x.isDigit || x ∈ ['_', '.', 'e', 'E', '+', '-']

lemma inDecimal_of_spells {cs : List Char} (h : Spells decimal cs) : ∀ x ∈ cs, inDecimal x = true := by
  have digit (x : Char) (h : x.isDigit = true) : inDecimal x = true := by simp [inDecimal, h]
  have marks : ∀ x ∈ ['e', 'E'], inDecimal x = true := List.all_iff_forall_prop.mp (by decide)
  have signs : ∀ x ∈ ['+', '-'], inDecimal x = true := List.all_iff_forall_prop.mp (by decide)
  have bar : ∀ x ∈ ['_'], inDecimal x = true := List.all_iff_forall_prop.mp (by decide)
  have point : ∀ x ∈ ['.'], inDecimal x = true := List.all_iff_forall_prop.mp (by decide)
  refine forall_of_madeOf ?_ h
  exact ⟨⟨⟨digit, ⟨digit, bar⟩, point, digit⟩, point, digit, digit⟩,
    fun x hx => marks x (of_decide_eq_true hx), fun x hx => signs x (of_decide_eq_true hx), digit, digit⟩

/-- The characters of a number with a prefix. -/
lemma forall_of_prefixed {letters cs : List Char} {p q : Char → Bool} (zero : q '0' = true)
    (bar : q '_' = true) (letter : letters.all q = true) (digit : ∀ x, p x = true → q x = true)
    (h : Spells (prefixed letters p) cs) : ∀ x ∈ cs, q x = true := by
  refine forall_of_madeOf (e := prefixed letters p) ?_ h
  exact ⟨List.forall_mem_singleton.2 zero,
    fun x hx => List.all_eq_true.mp letter x (of_decide_eq_true hx), digit, digit,
    List.forall_mem_singleton.2 bar⟩

/-- What begins with the letter of one base is no number of another: no letter of that other base is among
the characters of the text. -/
lemma prefixed_fails_of_forall {letters cs : List Char} {p q : Char → Bool} {m : Mode} {c d : Cursor}
    (all : ∀ x ∈ cs, q x = true) (free : letters.all (! q ·) = true)
    (parts : letters.all goesOn = true) (tight : m.atomicity ≠ .normal) (leads : c.Leads cs d)
    (stops : d.Stops goesOn) : Reads language m (.once (prefixed letters p)) c none := by
  refine prefixed_fails tight (fun x hx mem => ?_) (List.all_eq_true.mp parts) leads stops
  have := List.all_eq_true.mp free x mem
  simp [all x hx] at this

lemma isDigit_of_isOctDigit {x : Char} (h : isOctDigit x = true) : x.isDigit = true := by
  simp only [isOctDigit, Bool.and_eq_true, decide_eq_true_eq, Char.le_def] at h
  simp only [Char.isDigit, Bool.and_eq_true, decide_eq_true_eq]
  exact ⟨h.1, UInt32.le_trans h.2 (by decide)⟩

lemma isDigit_of_isBinDigit {x : Char} (h : isBinDigit x = true) : x.isDigit = true := by
  simp only [isBinDigit, Bool.or_eq_true, beq_iff_eq] at h
  rcases h with rfl | rfl
  all_goals decide

/-- A number is read whole where nothing goes on with it. -/
theorem takes_number {cs : List Char} (h : Spells number cs) : Takes number cs goesOn := by
  obtain ⟨cs, _, rfl, h, rfl⟩ := h
  have ends : Takes (.notAhead identPart) [] goesOn :=
    .notAhead fun stops => char_fails (stops.mono fun _ => goesOn_of_isIdentPart)
  suffices digits : Takes _ cs goesOn from digits.seq ends fun _ hx => hx
  have hex (x : Char) (hx : isHexDigit x = true) : goesOn x = true :=
    goesOn_of_isIdentPart (isIdentPart_of_isHexDigit hx)
  have octal (x : Char) (hx : isOctDigit x = true) : goesOn x = true :=
    goesOn_of_isDigit (isDigit_of_isOctDigit hx)
  have binary (x : Char) (hx : isBinDigit x = true) : goesOn x = true :=
    goesOn_of_isDigit (isDigit_of_isBinDigit hx)
  rcases h with h | h | h | h
  · exact .choiceFirst (takes_prefixed hex h)
  · have all := forall_of_prefixed (q := fun x => isOctDigit x || x ∈ ['_', 'o', 'O']) (by decide)
      (by decide) (by decide) (fun x hx => by simp [hx]) h
    refine .choiceSecond (prefixed_fails_of_forall all (by decide) (by decide)) ?_
    exact .choiceFirst (takes_prefixed octal h)
  · have all := forall_of_prefixed (q := fun x => isBinDigit x || x ∈ ['_', 'b', 'B']) (by decide)
      (by decide) (by decide) (fun x hx => by simp [hx]) h
    refine .choiceSecond (prefixed_fails_of_forall all (by decide) (by decide)) ?_
    refine .choiceSecond (prefixed_fails_of_forall all (by decide) (by decide)) ?_
    exact .choiceFirst (takes_prefixed binary h)
  · have all := inDecimal_of_spells h
    refine .choiceSecond (prefixed_fails_of_forall all (by decide) (by decide)) ?_
    refine .choiceSecond (prefixed_fails_of_forall all (by decide) (by decide)) ?_
    refine .choiceSecond (prefixed_fails_of_forall all (by decide) (by decide)) ?_
    exact takes_decimal h

/-- The characters that a number may begin with. -/
def numberStarts : List Char :=
  '.' :: digits

lemma exists_cons_of_spells_number {cs : List Char} (h : Spells number cs) :
    ∃ x xs, cs = x :: xs ∧ x ∈ numberStarts := by
  obtain ⟨cs, _, rfl, h, rfl⟩ := h
  rw [List.append_nil]
  have zero {letters : List Char} {p : Char → Bool} (h : Spells (prefixed letters p) cs) :
      ∃ x xs, cs = x :: xs ∧ x ∈ numberStarts := by
    obtain ⟨_, _, rfl, rfl, -⟩ := h
    exact ⟨'0', _, rfl, by decide⟩
  rcases h with h | h | h | h
  · exact zero h
  · exact zero h
  · exact zero h
  · obtain ⟨_, _, rfl, ⟨_, _, rfl, ⟨x, rfl, hx⟩, -⟩ | ⟨_, _, rfl, rfl, -⟩, -⟩ := h
    · exact ⟨x, _, rfl, List.mem_cons_of_mem _ (mem_digits hx)⟩
    · exact ⟨'.', _, rfl, by decide⟩

/-- The characters that a number is made of. -/
def inNumber (x : Char) : Bool :=
  isHexDigit x || x ∈ "xXoO_.+-".toList

lemma inNumber_of_spells {cs : List Char} (h : Spells number cs) : ∀ x ∈ cs, inNumber x = true := by
  have digit (x : Char) (hx : x.isDigit = true) : inNumber x = true := by
    simp [inNumber, isHexDigit, hx]
  have marks : ∀ x ∈ ['_', '.', 'e', 'E', '+', '-'], inNumber x = true :=
    List.all_iff_forall_prop.mp (by decide)
  obtain ⟨cs, _, rfl, h, rfl⟩ := h
  rw [List.append_nil]
  rcases h with h | h | h | h
  · exact forall_of_prefixed (by decide) (by decide) (by decide)
      (fun x hx => by simp [inNumber, hx]) h
  · exact forall_of_prefixed (by decide) (by decide) (by decide)
      (fun x hx => digit x (isDigit_of_isOctDigit hx)) h
  · exact forall_of_prefixed (by decide) (by decide) (by decide)
      (fun x hx => digit x (isDigit_of_isBinDigit hx)) h
  · intro x hx
    have := inDecimal_of_spells h x hx
    simp only [inDecimal, Bool.or_eq_true, decide_eq_true_eq] at this
    exact this.elim (digit x) (marks x)

/-- A character that no number is made of is in none. -/
lemma not_mem_of_spells_number {cs : List Char} {x : Char} (h : Spells number cs)
    (free : inNumber x = false) : x ∉ cs := by
  intro mem
  rw [inNumber_of_spells h x mem] at free
  cases free

/-- Where a number stands whole, no integer with the mark of arbitrary precision does. -/
lemma bigint_fails_of_number {cs : List Char} {m : Mode} {c d : Cursor} (h : Spells number cs)
    (leads : c.Leads cs d) (stops : d.Stops goesOn) :
    Reads language m (.once (.call .bigint)) c none := by
  obtain ⟨o, reads⟩ := ranking.exists_reads (m := m) (e := .call .bigint) (c := c) (by decide)
  cases o with
  | none => exact reads
  | some q =>
    exfalso
    cases reads with
    | silent silent _ => cases silent
    | call _ reads =>
      obtain ⟨bs, leads', spelled⟩ := reads.spells (by simp [language, kind, Mode.within])
      -- All of it may go on a number, and it ends in a letter that is in none.
      have last : 'n' ∈ bs := by
        obtain ⟨_, _, rfl, -, _, _, rfl, rfl, rfl⟩ := spelled
        simp
      have parts : ∀ x ∈ bs, goesOn x = true := by
        have digit (x : Char) (hx : x.isDigit = true) : goesOn x = true := goesOn_of_isDigit hx
        have mark : ∀ x ∈ ['n'], goesOn x = true := List.all_iff_forall_prop.mp (by decide)
        exact forall_of_madeOf (e := bigint) ⟨⟨digit, digit⟩, mark, trivial⟩ spelled
      have both := leads.1.symm.trans leads'.1
      rcases List.append_eq_append_iff.1 both with ⟨as, longer, after⟩ | ⟨as, shorter, -⟩
      · rcases as with _ | ⟨y, as⟩
        · rw [List.append_nil] at longer
          exact not_mem_of_spells_number h (by decide) (longer ▸ last)
        · have := stops y _ after
          rw [parts y (by simp [longer])] at this
          cases this
      · exact not_mem_of_spells_number h (x := 'n') (by decide) (by simp [shorter, last])

end Numbers

section Digits

variable {cs : List Char}

/-- Digits spell a number. -/
lemma spells_number_of_digits (ne : cs ≠ []) (all : ∀ x ∈ cs, x.isDigit = true) : Spells number cs := by
  obtain ⟨x, xs, rfl⟩ := List.exists_cons_of_ne_nil ne
  have others : Spells (.star (.choice digit (token "_")) : Expr Rule) xs := by
    refine ⟨xs.map fun y => [y], ?_, fun ys hys => ?_⟩
    · rw [← List.flatMap_def, List.flatMap_singleton']
    · obtain ⟨y, hy, rfl⟩ := List.mem_map.1 hys
      exact .inl ⟨y, rfl, all y (List.mem_cons_of_mem x hy)⟩
  have whole : Spells decimal (x :: xs) :=
    ⟨x :: xs, [], by simp, .inl ⟨[x], xs, rfl, ⟨x, rfl, all x List.mem_cons_self⟩, xs, [], by simp, others,
      .inl rfl⟩, .inl rfl⟩
  exact ⟨x :: xs, [], by simp, .inr (.inr (.inr whole)), rfl⟩

/-- Digits denote a whole number. -/
lemma number?_of_digits (ne : cs ≠ []) (all : ∀ x ∈ cs, x.isDigit = true) :
    Literal.number? cs = some (.ofDecimal (Literal.digitsValue 10 cs) 0) := by
  have noBase : Literal.basePrefix? cs = none := by
    simpa using Literal.basePrefix?_of_parts all (.inl rfl) (.inl rfl)
  have plain : ∀ x ∈ cs, (!Literal.isExponentMark x) = true := fun x hx => by
    rw [Literal.not_isExponentMark (all x hx)]
    rfl
  have pointless : ∀ x ∈ cs, (x != '.') = true := fun x hx => by
    simpa using Literal.ne_of_isDigit (all x hx) (by decide)
  have value := Literal.digits?_of_forall ne fun x hx => Literal.isDigitOf_ten (all x hx)
  -- All of the text belongs to the whole part.
  have taken {p : Char → Bool} (h : ∀ x ∈ cs, p x = true) : cs.takeWhile p = cs := by
    have whole : (cs ++ []).takeWhile p = cs ++ [].takeWhile p := List.takeWhile_append_of_pos h
    simpa using whole
  have dropped {p : Char → Bool} (h : ∀ x ∈ cs, p x = true) : cs.dropWhile p = [] := by
    have whole : (cs ++ []).dropWhile p = [].dropWhile p := List.dropWhile_append_of_pos h
    simpa using whole
  rw [Literal.number?, Literal.filter_of_digits all]
  simp only [noBase, Literal.decimal?, taken plain, dropped plain, taken pointless, dropped pointless,
    List.drop_nil, List.append_nil, value]
  rfl

end Digits
end ScriptTyping.Grammar
