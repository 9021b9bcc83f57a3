import ScriptTyping.Proofs.Peg.Forward
import ScriptTyping.Proofs.Peg.Total

/-!
# What can be told beforehand

Of a text often only the beginning is known, and that is enough to tell whether an expression matches
there. `forecast` evaluates an expression as far as the known text goes; it answers `.unsure` where what
comes after would decide. An `Outlook` holds what is known of a place: the text that stands there, the
rules known not to match there, and what may stand after the known text.

* `Outlook.Fits.right`: whatever is forecast is read.
* `Reads.contains_of_requires`: a text that every match of an expression contains stands after each place
  where the expression matches.
-/

namespace ScriptTyping.Peg

variable {R : Type}

/-- Whether gaps are not skipped. -/
def Mode.isTight (m : Mode) : Bool :=
  m.atomicity ≠ .normal

namespace Mode

@[simp] lemma isTight_wanting (m : Mode) : m.wanting.isTight = m.isTight := by
  rw [isTight, isTight, wanting_atomicity]

@[simp] lemma isTight_refusing (m : Mode) : m.refusing.isTight = m.isTight := by
  rw [isTight, isTight, refusing_atomicity]

lemma isTight_within (m : Mode) (k : RuleKind) :
    (m.within k).isTight = (m.isTight || k = .atomic || k = .compound) := by
  obtain ⟨a, _⟩ := m
  cases a <;> cases k <;> rfl

lemma isTight_iff {m : Mode} : m.isTight = true ↔ m.atomicity ≠ .normal := by
  simp [isTight]

end Mode

/-- What an evaluation is known to come to. -/
inductive Forecast where
  | fails
  /-- A match after which this much of the known text is left. -/
  | reads (rest : List Char)
  | unsure
  deriving DecidableEq

namespace Forecast

/-- The second after the first. -/
def andThen : Forecast → (List Char → Forecast) → Forecast
  | reads w, f => f w
  | fails, _ => fails
  | unsure, _ => unsure

/-- The second if the first fails. -/
def orElse : Forecast → Forecast → Forecast
  | fails, f => f
  | f, _ => f

end Forecast

/-- What is known of a place. -/
structure Outlook (R : Type) where
  /-- The text that stands there. -/
  known : List Char
  /-- Rules that do not match there. -/
  missed : List R
  /-- What may stand after the known text: nothing, or else a character of a class. -/
  next : Option (Char → Bool)

namespace Outlook

/-- Whether a character may stand after the known text. -/
def allows (o : Outlook R) (x : Char) : Bool :=
  match o.next with
  | some p => p x
  | none => false

/-- What is known of a text where the known text `w` is left. -/
def text (o : Outlook R) : List Char → List Char → Forecast
  | [], w => .reads w
  | x :: xs, y :: ys => if x = y then o.text xs ys else .fails
  | x :: _, [] => if o.allows x then .unsure else .fails

/-- What an expression comes to where the known text `w` is left, `n` steps deep. Gaps are skipped
unless `tight` says otherwise. -/
def forecast [DecidableEq R] (g : Grammar R) (o : Outlook R) :
    Nat → (tight : Bool) → Expr R → (w : List Char) → Forecast
  | 0, _, _, _ => .unsure
  | n + 1, tight, e, w =>
    match e with
    | .empty => .reads w
    | .text cs => o.text cs w
    | .char p =>
      match w with
      | x :: xs => if p x then .reads xs else .fails
      | [] => if o.next.isNone then .fails else .unsure
    | .finish =>
      match w with
      | _ :: _ => .fails
      | [] => if o.next.isNone then .reads [] else .unsure
    | .gap => if tight then .reads w else forecast g o n true (.star g.blank) w
    | .seq a b =>
      (forecast g o n tight a w).andThen fun w₁ =>
        (forecast g o n tight .gap w₁).andThen fun w₂ => forecast g o n tight b w₂
    | .choice a b => (forecast g o n tight a w).orElse (forecast g o n tight b w)
    | .opt a => (forecast g o n tight a w).orElse (.reads w)
    | .star a =>
      match forecast g o n tight a w with
      | .fails => .reads w
      | .reads w₁ => if tight then forecast g o n tight (.star a) w₁ else .unsure
      | .unsure => .unsure
    | .ahead a => (forecast g o n tight a w).andThen fun _ => .reads w
    | .notAhead a =>
      match forecast g o n tight a w with
      | .fails => .reads w
      | .reads _ => .fails
      | .unsure => .unsure
    | .call r =>
      if w = o.known ∧ r ∈ o.missed then .fails
      else forecast g o n (tight || g.kind r = .atomic || g.kind r = .compound) (g.body r) w

variable {g : Grammar R} {o : Outlook R} {z : List Char}

/-- The text after the known one is as the outlook says, and the rules are missed there. -/
structure Fits (o : Outlook R) (g : Grammar R) (z : List Char) : Prop where
  next : ∀ x xs, z = x :: xs → o.allows x = true
  missed : ∀ r ∈ o.missed, ∀ m i, Reads g m (.once (.call r)) ⟨i, o.known ++ z⟩ none

/-- A forecast is right about an evaluation. -/
def Right (g : Grammar R) (m : Mode) (e : Expr R) (i : Nat) (w z : List Char) : Forecast → Prop
  | .fails => Reads g m (.once e) ⟨i, w ++ z⟩ none
  | .reads w' => ∃ q, Reads g m (.once e) ⟨i, w ++ z⟩ (some q) ∧ q.place.rest = w' ++ z
  | .unsure => True

section Right

variable {m : Mode} {a b : Expr R} {i : Nat} {w : List Char} {f : Forecast}

/-- A place is its rest and its index. -/
lemma cursor_eq {c : Cursor} {cs : List Char} (h : c.rest = cs) : c = ⟨c.index, cs⟩ := by
  obtain ⟨i, r⟩ := c
  cases h
  rfl

lemma Right.seq {k₂ k₃ : List Char → Forecast} (first : Right g m a i w z f)
    (gap : ∀ w₁ j, Right g m .gap j w₁ z (k₂ w₁)) (second : ∀ w₂ j, Right g m b j w₂ z (k₃ w₂)) :
    Right g m (.seq a b) i w z (f.andThen fun w₁ => (k₂ w₁).andThen k₃) := by
  cases f with
  | fails => exact Reads.seqFirst first
  | unsure => trivial
  | reads w₁ =>
    obtain ⟨q₁, reads₁, place₁⟩ := first
    have gap := gap w₁ q₁.place.index
    rw [Forecast.andThen]
    cases e₂ : k₂ w₁ with
    | fails =>
      rw [e₂] at gap
      obtain ⟨_, e⟩ := Reads.gap_some gap
      cases e
    | unsure => trivial
    | reads w₂ =>
      rw [e₂] at gap
      obtain ⟨q₂, reads₂, place₂⟩ := gap
      -- The second part starts where the first came to.
      rw [← cursor_eq place₁] at reads₂
      have second := second w₂ q₂.place.index
      rw [Forecast.andThen]
      cases e₃ : k₃ w₂ with
      | fails =>
        rw [e₃, Right, ← cursor_eq place₂] at second
        exact .seqSecond reads₁ reads₂ second
      | unsure => trivial
      | reads w₃ =>
        rw [e₃, Right, ← cursor_eq place₂] at second
        obtain ⟨q₃, reads₃, place₃⟩ := second
        exact ⟨_, .seq reads₁ reads₂ reads₃, place₃⟩

lemma Right.orElse {k : Forecast} (first : Right g m a i w z f) (second : Right g m b i w z k) :
    Right g m (.choice a b) i w z (f.orElse k) := by
  cases f with
  | fails =>
    cases k with
    | fails => exact Reads.choiceSecond first second
    | unsure => trivial
    | reads w' =>
      obtain ⟨q, reads, place⟩ := second
      exact ⟨q, .choiceSecond first reads, place⟩
  | unsure => trivial
  | reads w' =>
    obtain ⟨q, reads, place⟩ := first
    exact ⟨q, .choiceFirst reads, place⟩

lemma Right.opt (first : Right g m a i w z f) :
    Right g m (.opt a) i w z (f.orElse (.reads w)) := by
  cases f with
  | fails => exact ⟨_, .optNone first, rfl⟩
  | unsure => trivial
  | reads w' =>
    obtain ⟨q, reads, place⟩ := first
    exact ⟨q, .optSome reads, place⟩

lemma Right.call {r : R} (h : Right g (m.within (g.kind r)) (g.body r) i w z f) :
    Right g m (.call r) i w z f := by
  by_cases silent : g.kind r = .silent
  · rw [silent] at h
    cases f with
    | fails => exact Reads.silent silent h
    | unsure => trivial
    | reads w' =>
      obtain ⟨q, reads, place⟩ := h
      exact ⟨q, .silent silent reads, place⟩
  · cases f with
    | fails => exact Reads.callFail silent h
    | unsure => trivial
    | reads w' =>
      obtain ⟨q, reads, place⟩ := h
      exact ⟨_, .call silent reads, place⟩

lemma Right.text (h : o.Fits g z) (cs w : List Char) : Right g m (.text cs) i w z (o.text cs w) := by
  have skip : ∀ i, match o.text cs w with
      | .fails => Cursor.skip? cs ⟨i, w ++ z⟩ = none
      | .reads w' => ∃ j, Cursor.skip? cs ⟨i, w ++ z⟩ = some ⟨j, w' ++ z⟩
      | .unsure => True := by
    induction cs generalizing w with
    | nil => exact fun i => ⟨i, rfl⟩
    | cons x xs ih =>
      intro i
      rcases w with _ | ⟨y, ys⟩
      -- The known text is at its end: what follows is known by its first character at most.
      · by_cases allowed : o.allows x = true
        · simp only [Outlook.text, allowed, if_true]
        · simp only [Outlook.text, allowed]
          rcases z with _ | ⟨y, ys⟩
          · rfl
          · refine Cursor.skip?_eq_none rfl ?_
            rintro rfl
            exact allowed (h.next _ _ rfl)
      · by_cases same : x = y
        · simp only [Outlook.text, List.cons_append, Cursor.skip?, if_pos same]
          exact ih ys (i + 1)
        · simp only [Outlook.text, List.cons_append, Cursor.skip?, if_neg same]
  have := skip i
  cases e : o.text cs w with
  | fails =>
    rw [e] at this
    exact .textFail this
  | unsure => trivial
  | reads w' =>
    rw [e] at this
    obtain ⟨j, this⟩ := this
    exact ⟨_, .text this, rfl⟩

/-- Where no gaps are skipped, the times of a repetition may be told one by one. -/
lemma Right.star {k : List Char → Forecast} (tight : m.atomicity ≠ .normal) :
    Right g m a i w z f → (∀ w₁ j, Right g m (.star a) j w₁ z (k w₁)) →
    Right g m (.star a) i w z (match f with
      | .fails => .reads w
      | .reads w₁ => k w₁
      | .unsure => .unsure) := by
  intro first more
  cases f with
  | fails => exact ⟨_, .starNone first, rfl⟩
  | unsure => trivial
  | reads w₁ =>
    obtain ⟨q₁, reads₁, place₁⟩ := first
    have more := more w₁ q₁.place.index
    cases e : k w₁ with
    | fails =>
      rw [e] at more
      obtain ⟨_, e⟩ := Reads.star_some more
      cases e
    | unsure => simp only [e]; trivial
    | reads w₂ =>
      rw [e] at more
      obtain ⟨q₂, reads₂, place₂⟩ := more
      rw [← cursor_eq place₁] at reads₂
      obtain ⟨q, reads, place⟩ := Reads.star_step tight reads₁ reads₂
      simp only [e]
      exact ⟨q, reads, by rw [place, place₂]⟩

/-- Where gaps are skipped, a repetition is told only if there is none. -/
lemma Right.starOnce : Right g m a i w z f →
    Right g m (.star a) i w z (match f with
      | .fails => .reads w
      | .reads _ => .unsure
      | .unsure => .unsure) := by
  intro first
  cases f with
  | fails => exact ⟨_, .starNone first, rfl⟩
  | _ => trivial

lemma Right.gap (normal : m.atomicity = .normal)
    (h : Right g { m with atomicity := .atomic } (.star g.blank) i w z f) :
    Right g m .gap i w z f := by
  cases f with
  | fails =>
    obtain ⟨_, e⟩ := Reads.star_some h
    cases e
  | unsure => trivial
  | reads w' =>
    obtain ⟨q, reads, place⟩ := h
    exact ⟨_, .gap normal reads, place⟩

lemma Right.ahead (h : Right g m.wanting a i w z f) :
    Right g m (.ahead a) i w z (f.andThen fun _ => .reads w) := by
  cases f with
  | fails => exact Reads.aheadFail h
  | unsure => trivial
  | reads w' =>
    obtain ⟨q, reads, _⟩ := h
    exact ⟨_, .ahead reads, rfl⟩

lemma Right.notAhead : Right g m.refusing a i w z f →
    Right g m (.notAhead a) i w z (match f with
      | .fails => .reads w
      | .reads _ => .fails
      | .unsure => .unsure) := by
  intro h
  cases f with
  | fails => exact ⟨_, .notAhead h, rfl⟩
  | unsure => trivial
  | reads w' =>
    obtain ⟨q, reads, _⟩ := h
    exact Reads.notAheadFail reads

end Right

/-- Where nothing may stand nothing does. -/
lemma Fits.eq_nil (h : o.Fits g z) (next : o.next = none) : z = [] := by
  rcases z with _ | ⟨x, xs⟩
  · rfl
  · have := h.next x xs rfl
    simp [allows, next] at this

/-- Whatever is forecast is read. -/
theorem Fits.right [DecidableEq R] (h : o.Fits g z) (n : Nat) (m : Mode) (e : Expr R) (i : Nat)
    (w : List Char) : Right g m e i w z (o.forecast g n m.isTight e w) := by
  -- On the depth of the forecast, which is the depth of the calls.
  induction n generalizing m e i w with
  | zero => trivial
  | succ n ih =>
    cases e with
    | empty => exact ⟨_, .empty, rfl⟩
    | text cs => exact .text h cs w
    | char p =>
      rcases w with _ | ⟨x, xs⟩
      · cases next : o.next with
        | none =>
          obtain rfl := h.eq_nil next
          simp only [forecast, next]
          exact Reads.charEnd
        | some p => simp [forecast, next, Right]
      · by_cases hx : p x = true
        · simp only [forecast, hx, if_true]
          exact ⟨_, .char hx, rfl⟩
        · simp only [forecast, hx]
          exact Reads.charFail (by simpa using hx)
    | finish =>
      rcases w with _ | ⟨x, xs⟩
      · cases next : o.next with
        | none =>
          obtain rfl := h.eq_nil next
          simp only [forecast, next]
          exact ⟨_, .finish, rfl⟩
        | some p => simp [forecast, next, Right]
      · exact Reads.finishFail
    | gap =>
      cases tight : m.isTight with
      | true =>
        simp only [forecast, if_true]
        exact ⟨_, .tight (Mode.isTight_iff.1 tight), rfl⟩
      | false =>
        have blanks := ih { m with atomicity := .atomic } (.star g.blank) i w
        simp only [forecast]
        exact .gap (by simpa [Mode.isTight] using tight) blanks
    | seq a b => exact .seq (ih ..) (fun _ _ => ih ..) (fun _ _ => ih ..)
    | choice a b => exact .orElse (ih ..) (ih ..)
    | opt a => exact .opt (ih ..)
    | star a =>
      have first := ih m a i w
      cases tight : m.isTight with
      | true =>
        rw [tight] at first
        simp only [forecast, if_true]
        refine .star (Mode.isTight_iff.1 tight) first fun w₁ j => ?_
        rw [← tight]
        exact ih m (.star a) j w₁
      | false =>
        rw [tight] at first
        exact .starOnce first
    | ahead a =>
      have inner := ih m.wanting a i w
      rw [Mode.isTight_wanting] at inner
      exact .ahead inner
    | notAhead a =>
      have inner := ih m.refusing a i w
      rw [Mode.isTight_refusing] at inner
      exact .notAhead inner
    | call r =>
      by_cases missed : w = o.known ∧ r ∈ o.missed
      · simp only [forecast, if_pos missed]
        obtain ⟨rfl, hr⟩ := missed
        exact h.missed r hr m i
      · simp only [forecast, if_neg missed]
        refine .call ?_
        rw [← Mode.isTight_within]
        exact ih (m.within (g.kind r)) (g.body r) i w

/-- What is forecast to fail does. -/
lemma Fits.fails [DecidableEq R] (h : o.Fits g z) {n : Nat} {m : Mode} {e : Expr R} {c : Cursor}
    (rest : c.rest = o.known ++ z) (e_fails : o.forecast g n m.isTight e o.known = .fails) :
    Reads g m (.once e) c none := by
  have right := h.right n m e c.index o.known
  rw [e_fails, Right, ← cursor_eq rest] at right
  exact right

/-- What is forecast to be read is. -/
lemma Fits.reads [DecidableEq R] (h : o.Fits g z) {n : Nat} {m : Mode} {e : Expr R} {c : Cursor}
    {w : List Char} (rest : c.rest = o.known ++ z)
    (e_reads : o.forecast g n m.isTight e o.known = .reads w) :
    ∃ q, Reads g m (.once e) c (some q) ∧ q.place.rest = w ++ z := by
  have right := h.right n m e c.index o.known
  rw [e_reads, Right, ← cursor_eq rest] at right
  exact right

end Outlook

/-- Whether every match of an expression contains the text `w`, as far as can be told `n` steps
deep. -/
def Requires (g : Grammar R) (w : List Char) : Nat → Expr R → Bool
  | 0, _ => false
  | n + 1, e =>
    match e with
    | .text cs => cs = w
    | .seq a b => Requires g w n a || Requires g w n b
    | .choice a b => Requires g w n a && Requires g w n b
    | .call r => Requires g w n (g.body r)
    | _ => false

/-- A text that every match contains stands after each place where there is a match. -/
lemma Reads.contains_of_requires {g : Grammar R} {w : List Char} {n : Nat} {m : Mode} {e : Expr R}
    {c : Cursor} {q : Match R} (requires : Requires g w n e = true)
    (h : Reads g m (.once e) c (some q)) : w <:+: c.rest := by
  induction n generalizing m e c q with
  | zero => cases requires
  | succ n ih =>
    cases e with
    | text cs =>
      cases h with
      | text skip =>
        obtain rfl := of_decide_eq_true requires
        obtain ⟨rest, -⟩ := Cursor.leads_of_skip? skip
        rw [rest]
        exact (List.prefix_append _ _).isInfix
    | seq a b =>
      cases h with
      | seq h₁ h₂ h₃ =>
        simp only [Requires, Bool.or_eq_true] at requires
        rcases requires with first | second
        · exact ih first h₁
        · obtain ⟨_, l₁⟩ := h₁.leads
          obtain ⟨_, l₂⟩ := h₂.leads
          obtain ⟨rest, -⟩ := l₁.trans l₂
          rw [rest]
          exact (ih second h₃).trans (List.suffix_append _ _).isInfix
    | choice a b =>
      simp only [Requires, Bool.and_eq_true] at requires
      cases h with
      | choiceFirst h => exact ih requires.1 h
      | choiceSecond _ h => exact ih requires.2 h
    | call r =>
      cases h with
      | silent _ h => exact ih requires h
      | call _ h => exact ih requires h
    | _ => cases requires

end ScriptTyping.Peg
