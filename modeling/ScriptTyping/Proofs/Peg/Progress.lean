import ScriptTyping.Proofs.Peg.Yield

/-!
# Matches that are not empty

`Consumes p e` says that a match of `e` reads at least one character, if this holds of the rules that
`p` picks. When what `p` says of each rule follows from the expression of the rule, it is true of the
grammar (`Reads.index_lt`), and the trees of these rules cover some text.

Such a match has a last token (`Reads.exists_stop`).
-/

namespace ScriptTyping.Peg

variable {R : Type} {g : Grammar R}

/-- Whether a match of an expression reads at least one character, given the rules of which this is
known. -/
def Consumes (p : R → Bool) : Expr R → Bool
  | .text cs => !cs.isEmpty
  | .char _ => true
  | .seq a b => Consumes p a || Consumes p b
  | .choice a b => Consumes p a && Consumes p b
  | .call r => p r
  | _ => false

/-- Whether a match of a task reads at least one character. Further times may be none. -/
def Task.Consumes (p : R → Bool) : Task R → Bool
  | once e => Peg.Consumes p e
  | again _ => false

/-- A match that cannot be empty moves on. -/
lemma Reads.index_lt {p : R → Bool} (known : ∀ r, p r = true → Consumes p (g.body r) = true)
    {m : Mode} {k : Task R} {c : Cursor} {q : Match R} (h : Reads g m k c (some q))
    (consumes : k.Consumes p = true) : c.index < q.place.index := by
  generalize o : some q = r at h
  induction h generalizing q
  case text cs _ _ skip =>
    cases o
    have len := (Cursor.leads_of_skip? skip).2
    have ne : cs ≠ [] := by
      rintro rfl
      cases consumes
    have := List.length_pos_iff.2 ne
    dsimp only
    omega
  case char =>
    cases o
    exact Nat.lt_succ_self _
  case seq h₁ h₂ h₃ ih₁ _ ih₃ =>
    cases o
    have := h₁.index_le
    have := h₂.index_le
    have := h₃.index_le
    rw [Task.Consumes, Peg.Consumes, Bool.or_eq_true] at consumes
    dsimp only
    rcases consumes with consumes | consumes
    · have := ih₁ consumes rfl
      omega
    · have := ih₃ consumes rfl
      omega
  case choiceFirst ih =>
    rw [Task.Consumes, Peg.Consumes, Bool.and_eq_true] at consumes
    exact ih consumes.1 o
  case choiceSecond ih =>
    rw [Task.Consumes, Peg.Consumes, Bool.and_eq_true] at consumes
    exact ih consumes.2 o
  case silent ih => exact ih (known _ consumes) o
  case call q _ _ ih =>
    cases o
    exact ih (q := q) (known _ consumes) rfl
  all_goals first
    | cases consumes; done
    | cases o

/-- A match that cannot be empty has a token. -/
lemma Reads.exists_stop {p : R → Bool} (known : ∀ r, p r = true → Consumes p (g.body r) = true)
    {m : Mode} {k : Task R} {c : Cursor} {q : Match R} (h : Reads g m k c (some q))
    (consumes : k.Consumes p = true) : ∃ i, q.stop = some i := by
  generalize o : some q = r at h
  induction h generalizing q
  case text cs _ _ _ =>
    cases o
    have ne : cs ≠ [] := by
      rintro rfl
      cases consumes
    exact ⟨_, if_neg ne⟩
  case char =>
    cases o
    exact ⟨_, rfl⟩
  case seq q₁ _ q₃ _ _ _ ih₁ _ ih₃ =>
    cases o
    rw [Task.Consumes, Peg.Consumes, Bool.or_eq_true] at consumes
    dsimp only
    cases stop : q₃.stop with
    | some i => exact ⟨i, rfl⟩
    | none =>
      rcases consumes with consumes | consumes
      · exact ih₁ consumes rfl
      · obtain ⟨i, e⟩ := ih₃ consumes rfl
        rw [stop] at e
        cases e
  case choiceFirst ih =>
    rw [Task.Consumes, Peg.Consumes, Bool.and_eq_true] at consumes
    exact ih consumes.1 o
  case choiceSecond ih =>
    rw [Task.Consumes, Peg.Consumes, Bool.and_eq_true] at consumes
    exact ih consumes.2 o
  case silent ih => exact ih (known _ consumes) o
  case call q _ _ ih =>
    cases o
    exact ih (q := q) (known _ consumes) rfl
  all_goals first
    | cases consumes; done
    | cases o

/-- Blanks and comments, any number of them. -/
def IsGap (g : Grammar R) (cs : List Char) : Prop :=
  Spells (.star g.blank) cs

/-- What is read as a gap is one. -/
lemma Reads.isGap {m : Mode} {c : Cursor} {q : Match R} (h : Reads g m (.once .gap) c (some q)) :
    ∃ cs, c.Leads cs q.place ∧ IsGap g cs := by
  cases h with
  | gap _ h => exact h.spells (by simp)
  | tight _ =>
    have nothing : IsGap g [] := ⟨[], rfl, by simp⟩
    exact ⟨[], .refl c, nothing⟩

namespace Tree.IsRead

variable {source : List Char} {t : Tree R}

/-- A tree of a rule that reads something covers some text. -/
lemma start_lt_stop {p : R → Bool} (known : ∀ r, p r = true → Consumes p (g.body r) = true)
    (h : t.IsRead g source) (consumes : p t.rule = true) : t.start < t.stop := by
  obtain ⟨_, _, m, q, _, reads, text, _⟩ := h
  have lt := reads.index_lt known (known _ consumes)
  obtain ⟨cs, l⟩ := reads.leads
  rw [stop, text, l.upTo, ← l.2]
  exact lt

end Tree.IsRead

end ScriptTyping.Peg
