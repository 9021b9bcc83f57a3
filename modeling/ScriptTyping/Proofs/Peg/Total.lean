import ScriptTyping.Proofs.Peg.Progress

/-!
# Grammars that always answer

`run` answers whenever its count is high enough, if the rules of the grammar can be ranked: of the
rules that a match may call before it reads a character, each has a lower rank than the rule that it
is called from, and whatever is repeated reads something each time. A `Ranking` is such a rank, and
`Ranking.depth` is a count that is enough for a text.

The proof follows what is left of the text, then the rank of the rules that may be called there, and
then the expression. Calls go deeper without end only if none of the three gets less.
-/

namespace ScriptTyping.Peg

variable {R : Type} {g : Grammar R}

/-- How deep the evaluation of an expression goes without the rules in it, when that of a gap goes
so deep. -/
def Expr.height (gap : Nat) : Expr R → Nat
  | .gap => gap
  | .seq a b => 1 + max (a.height gap) (max gap (b.height gap))
  | .choice a b => 1 + max (a.height gap) (b.height gap)
  | .opt a | .ahead a | .notAhead a => 1 + a.height gap
  | .star a => 2 + max gap (a.height gap)
  | _ => 1

lemma Expr.height_le_height {i j : Nat} (le : i ≤ j) (e : Expr R) : e.height i ≤ e.height j := by
  induction e
  all_goals
    simp only [Expr.height]
    omega

/-- Whether a match of an expression calls only rules of ranks below `k` before it has read a
character, and whether all that is repeated in it reads something. No rank is as high as `top`. -/
def Guarded (p : R → Bool) (rank : R → Nat) (top : Nat) : Nat → Expr R → Bool
  | k, .seq a b => Guarded p rank top k a && Guarded p rank top (if Consumes p a then top else k) b
  | k, .choice a b => Guarded p rank top k a && Guarded p rank top k b
  | k, .opt a | k, .ahead a | k, .notAhead a => Guarded p rank top k a
  | k, .star a => Consumes p a && Guarded p rank top k a
  | k, .call r => rank r < k
  | _, _ => true

/-- A guard allows all that a stricter one does. -/
lemma guarded_mono {p : R → Bool} {rank : R → Nat} {top k l : Nat} {e : Expr R}
    (h : Guarded p rank top k e = true) (le : k ≤ l) (le_top : l ≤ top) :
    Guarded p rank top l e = true := by
  induction e generalizing k l
  case seq a b iha ihb =>
    simp only [Guarded, Bool.and_eq_true] at h ⊢
    refine ⟨iha h.1 le le_top, ?_⟩
    split
    · rename_i consumes
      rw [if_pos consumes] at h
      exact h.2
    · rename_i consumes
      rw [if_neg consumes] at h
      exact ihb h.2 le le_top
  case choice a b iha ihb =>
    simp only [Guarded, Bool.and_eq_true] at h ⊢
    exact ⟨iha h.1 le le_top, ihb h.2 le le_top⟩
  case opt ih => exact ih h le le_top
  case ahead ih => exact ih h le le_top
  case notAhead ih => exact ih h le le_top
  case star ih =>
    simp only [Guarded, Bool.and_eq_true] at h ⊢
    exact ⟨h.1, ih h.2 le le_top⟩
  case call r =>
    simp only [Guarded, decide_eq_true_eq] at h ⊢
    omega
  all_goals rfl

/-- The evaluation of an expression at a place comes to an answer. -/
def Answers (g : Grammar R) (n : Nat) (m : Mode) (e : Expr R) (c : Cursor) : Prop :=
  ∀ a, (run g n m e c a).1 ≠ .exhausted

/-- The evaluation of further times comes to an answer. -/
def AnswersAgain (g : Grammar R) (n : Nat) (m : Mode) (e : Expr R) (c : Cursor) : Prop :=
  ∀ ts a, (again g n m e c ts a).1 ≠ .exhausted

section Answers

variable {n : Nat} {m : Mode} {a b e : Expr R} {c : Cursor} {r : R}

lemma answers_gap (h : m.atomicity = .normal →
    Answers g n { m with atomicity := .atomic } (.star g.blank) c) :
    Answers g (n + 1) m .gap c := by
  intro t
  rw [run]
  cases e : m.atomicity
  case normal => exact h e t
  all_goals simp

lemma answers_seq (first : Answers g n m a c)
    (second : ∀ q, Reads g m (.once a) c (some q) → Answers g n m .gap q.place ∧
      ∀ q', Reads g m (.once .gap) q.place (some q') → Answers g n m b q'.place) :
    Answers g (n + 1) m (.seq a b) c := by
  intro t
  rw [run]
  have told := Reads.of_run (n := n) (m := m) (e := a) (c := c) (a := t) (g := g)
  have answer := first t
  generalize run g n m a c t = o at told answer ⊢
  obtain ⟨⟨c₁, ts₁⟩ | _ | _, t₁⟩ := o
  · obtain ⟨stop, reads⟩ := told
    obtain ⟨gap, rest⟩ := second _ reads
    have told := Reads.of_run (n := n) (m := m) (e := .gap) (c := c₁) (a := t₁) (g := g)
    have answer := gap t₁
    dsimp only
    generalize run g n m .gap c₁ t₁ = o at told answer ⊢
    obtain ⟨⟨c₂, ts₂⟩ | _ | _, t₂⟩ := o
    · obtain ⟨stop, reads⟩ := told
      have answer := rest _ reads t₂
      dsimp only
      generalize run g n m b c₂ t₂ = o at answer ⊢
      obtain ⟨⟨c₃, ts₃⟩ | _ | _, t₃⟩ := o
      · simp
      · simp
      · exact absurd rfl answer
    · simp
    · exact absurd rfl answer
  · simp
  · exact absurd rfl answer

lemma answers_choice (first : Answers g n m a c) (second : Answers g n m b c) :
    Answers g (n + 1) m (.choice a b) c := by
  intro t
  rw [run]
  have answer := first t
  generalize run g n m a c t = o at answer ⊢
  obtain ⟨⟨c₁, ts₁⟩ | _ | _, t₁⟩ := o
  · simp
  · exact second t₁
  · exact absurd rfl answer

lemma answers_opt (h : Answers g n m a c) : Answers g (n + 1) m (.opt a) c := by
  intro t
  rw [run]
  have answer := h t
  generalize run g n m a c t = o at answer ⊢
  obtain ⟨⟨c₁, ts₁⟩ | _ | _, t₁⟩ := o
  · simp
  · simp
  · exact absurd rfl answer

lemma answers_ahead (h : Answers g n m.wanting a c) : Answers g (n + 1) m (.ahead a) c := by
  intro t
  rw [run]
  have answer := h t
  generalize run g n m.wanting a c t = o at answer ⊢
  obtain ⟨⟨c₁, ts₁⟩ | _ | _, t₁⟩ := o
  · simp
  · simp
  · exact absurd rfl answer

lemma answers_notAhead (h : Answers g n m.refusing a c) :
    Answers g (n + 1) m (.notAhead a) c := by
  intro t
  rw [run]
  have answer := h t
  generalize run g n m.refusing a c t = o at answer ⊢
  obtain ⟨⟨c₁, ts₁⟩ | _ | _, t₁⟩ := o
  · simp
  · simp
  · exact absurd rfl answer

lemma answers_star (first : Answers g n m a c)
    (more : ∀ q, Reads g m (.once a) c (some q) → AnswersAgain g n m a q.place) :
    Answers g (n + 1) m (.star a) c := by
  intro t
  rw [run]
  have told := Reads.of_run (n := n) (m := m) (e := a) (c := c) (a := t) (g := g)
  have answer := first t
  generalize run g n m a c t = o at told answer ⊢
  obtain ⟨⟨c₁, ts₁⟩ | _ | _, t₁⟩ := o
  · obtain ⟨stop, reads⟩ := told
    exact more _ reads ts₁ t₁
  · simp
  · exact absurd rfl answer

lemma answers_again (gap : Answers g n m .gap c)
    (more : ∀ q, Reads g m (.once .gap) c (some q) → Answers g n m a q.place ∧
      ∀ q', Reads g m (.once a) q.place (some q') → AnswersAgain g n m a q'.place) :
    AnswersAgain g (n + 1) m a c := by
  intro ts t
  rw [again]
  have told := Reads.of_run (n := n) (m := m) (e := .gap) (c := c) (a := t) (g := g)
  have answer := gap t
  generalize run g n m .gap c t = o at told answer ⊢
  obtain ⟨⟨c₁, ts₁⟩ | _ | _, t₁⟩ := o
  · obtain ⟨stop, reads⟩ := told
    obtain ⟨one, others⟩ := more _ reads
    have told := Reads.of_run (n := n) (m := m) (e := a) (c := c₁) (a := t₁) (g := g)
    have answer := one t₁
    dsimp only
    generalize run g n m a c₁ t₁ = o at told answer ⊢
    obtain ⟨⟨c₂, ts₂⟩ | _ | _, t₂⟩ := o
    · obtain ⟨stop, reads⟩ := told
      exact others _ reads (ts ++ ts₂) t₂
    · simp
    · exact absurd rfl answer
  · simp
  · exact absurd rfl answer

lemma answers_call (h : Answers g n (m.within (g.kind r)) (g.body r) c) :
    Answers g (n + 1) m (.call r) c := by
  intro t
  rw [run]
  have answer := h t
  cases k : g.kind r
  all_goals
    rw [k] at answer
    simp only [Mode.within] at answer ⊢
    generalize run g n _ (g.body r) c t = o at answer ⊢
    obtain ⟨⟨c₁, ts₁⟩ | _ | _, t₁⟩ := o
    · simp
    · simp
    · exact absurd rfl answer

end Answers

/-- What a rank of the rules needs so that the evaluation of a grammar always comes to an answer. -/
structure Ranking (g : Grammar R) where
  /-- The rules of which a match reads at least one character. -/
  consumes : R → Bool
  rank : R → Nat
  /-- Above the ranks of all rules. -/
  top : Nat
  /-- No less than the heights of all rules. -/
  height : Nat
  consumes_body : ∀ r, consumes r = true → Consumes consumes (g.body r) = true
  rank_lt : ∀ r, rank r < top
  guarded : ∀ r, Guarded consumes rank top (rank r) (g.body r) = true
  height_le : ∀ r, (g.body r).height (1 + (Expr.star g.blank).height 1) ≤ height
  blank : Guarded consumes rank top 0 (.star g.blank) = true

namespace Ranking

variable (k : Ranking g)

/-- The depth that a character more may take. -/
def width : Nat :=
  k.top * k.height + 1

/-- The depth that the rules of ranks below `i` may take before so many characters. -/
def budget (length i : Nat) : Nat :=
  length * k.width + i * k.height

variable {k}

lemma budget_le {l l' i j : Nat} (le : l ≤ l') (le' : i ≤ j) : k.budget l i ≤ k.budget l' j :=
  Nat.add_le_add (Nat.mul_le_mul_right _ le) (Nat.mul_le_mul_right _ le')

lemma budget_lt {l l' i : Nat} (lt : l < l') : k.budget l k.top < k.budget l' i := by
  have wide : (l + 1) * k.width ≤ l' * k.width := Nat.mul_le_mul_right _ lt
  rw [Nat.succ_mul] at wide
  rw [budget, budget]
  have : k.width = k.top * k.height + 1 := rfl
  omega

lemma budget_rank {l i j : Nat} (lt : i < j) : k.budget l i + k.height ≤ k.budget l j := by
  have := Nat.mul_le_mul_right k.height lt
  rw [Nat.succ_mul] at this
  rw [budget, budget]
  omega

end Ranking

/-- A match does not leave more than there was, and less if it reads something. -/
lemma Reads.length_le {m : Mode} {t : Task R} {c : Cursor} {q : Match R}
    (h : Reads g m t c (some q)) : q.place.rest.length ≤ c.rest.length := by
  obtain ⟨cs, l, _⟩ := h.leads
  rw [l, List.length_append]
  exact Nat.le_add_left _ _

lemma Reads.length_lt {p : R → Bool} (known : ∀ r, p r = true → Consumes p (g.body r) = true)
    {m : Mode} {t : Task R} {c : Cursor} {q : Match R} (h : Reads g m t c (some q))
    (consumes : t.Consumes p = true) : q.place.rest.length < c.rest.length := by
  have lt := h.index_lt known consumes
  obtain ⟨cs, l, e⟩ := h.leads
  rw [l, List.length_append]
  omega

section Ranked

variable (k : Ranking g) (gap : Nat) {Q : Mode → Prop}
  (gaps : ∀ m, Q m → ∀ n c, k.budget c.rest.length 0 + gap ≤ n → Answers g n m .gap c)

include gaps in
/-- Further times come to an answer if each does where no more is left. -/
lemma Ranking.answersAgain {m : Mode} (hm : Q m) {a : Expr R}
    (consumes : Consumes k.consumes a = true) {c : Cursor} {n : Nat}
    (each : ∀ d : Cursor, d.rest.length ≤ c.rest.length → ∀ n,
      k.budget d.rest.length k.top + a.height gap ≤ n → Answers g n m a d)
    (h : k.budget c.rest.length k.top + max gap (a.height gap) + 1 ≤ n) : AnswersAgain g n m a c := by
  generalize e : c.rest.length = l at h
  induction l using Nat.strongRecOn generalizing c n with
  | ind l ih =>
    subst e
    obtain ⟨n, rfl⟩ : ∃ i, n = i + 1 := ⟨n - 1, by omega⟩
    have le_top := k.budget_le (Nat.le_refl c.rest.length) (Nat.zero_le k.top)
    refine answers_again (gaps m hm n c (by omega)) fun q reads => ?_
    have le := reads.length_le
    have le_budget := k.budget_le le (Nat.le_refl k.top)
    refine ⟨each q.place le n (by omega), fun q' reads' => ?_⟩
    have lt : q'.place.rest.length < c.rest.length :=
      Nat.lt_of_lt_of_le (reads'.length_lt k.consumes_body consumes) le
    have lt_budget := k.budget_lt (i := k.top) lt
    exact ih _ lt (fun d hd => each d (by omega)) rfl (by omega)

variable (within : ∀ m kind, Q m → Q (m.within kind)) (wanting : ∀ m, Q m → Q m.wanting)
  (refusing : ∀ m, Q m → Q m.refusing) (height_le : ∀ r, (g.body r).height gap ≤ k.height)

include gaps within wanting refusing height_le in
/-- An expression comes to an answer if gaps do. -/
lemma Ranking.answers {m : Mode} (hm : Q m) {i : Nat} {e : Expr R} (le_top : i ≤ k.top)
    (guarded : Guarded k.consumes k.rank k.top i e = true) {c : Cursor} {n : Nat}
    (h : k.budget c.rest.length i + e.height gap ≤ n) : Answers g n m e c := by
  generalize len : c.rest.length = l at h
  -- By the length of the text that is left, then by the rank of the rule, then by the expression: each call
  -- that reads nothing has a lower rank, and each part a lower height.
  induction l using Nat.strongRecOn generalizing m i e c n with
  | ind l ihl =>
    induction i using Nat.strongRecOn generalizing m e c n with
    | ind i ihi =>
      have low := k.budget_le (Nat.le_refl l) (Nat.zero_le i)
      have later {m : Mode} (hm : Q m) {j : Nat} {e : Expr R} (le : j ≤ k.top)
          (guarded : Guarded k.consumes k.rank k.top j e = true) {d : Cursor} {n : Nat}
          (lt : d.rest.length < l) (h : k.budget l i + e.height gap ≤ n) : Answers g n m e d := by
        have := k.budget_lt (i := i) lt
        exact ihl _ lt hm (Nat.le_refl _) (guarded_mono guarded le (Nat.le_refl _)) rfl (by omega)
      induction e generalizing m c n with
      | gap =>
        rw [Expr.height] at h
        exact gaps m hm n c (by rw [len]; omega)
      | seq a b iha ihb =>
        simp only [Guarded, Bool.and_eq_true] at guarded
        simp only [Expr.height] at h
        obtain ⟨n, rfl⟩ : ∃ i, n = i + 1 := ⟨n - 1, by omega⟩
        refine answers_seq (iha hm guarded.1 len (by omega)) fun q reads => ?_
        have le := reads.length_le
        have le_budget := k.budget_le le (Nat.le_refl 0)
        rw [len] at le_budget
        refine ⟨gaps m hm n q.place (by omega), fun q' reads' => ?_⟩
        have le' := reads'.length_le
        by_cases consumes : Consumes k.consumes a = true
        · rw [if_pos consumes] at guarded
          have lt := reads.length_lt k.consumes_body consumes
          exact later hm (Nat.le_refl _) guarded.2 (by omega) (by omega)
        · rw [if_neg consumes] at guarded
          by_cases lt : q'.place.rest.length < l
          · exact later hm le_top guarded.2 lt (by omega)
          · exact ihb hm guarded.2 (by omega) (by omega)
      | choice a b iha ihb =>
        simp only [Guarded, Bool.and_eq_true] at guarded
        simp only [Expr.height] at h
        obtain ⟨n, rfl⟩ : ∃ i, n = i + 1 := ⟨n - 1, by omega⟩
        exact answers_choice (iha hm guarded.1 len (by omega)) (ihb hm guarded.2 len (by omega))
      | opt a ih =>
        simp only [Expr.height] at h
        obtain ⟨n, rfl⟩ : ∃ i, n = i + 1 := ⟨n - 1, by omega⟩
        exact answers_opt (ih hm guarded len (by omega))
      | star a ih =>
        simp only [Guarded, Bool.and_eq_true] at guarded
        simp only [Expr.height] at h
        obtain ⟨n, rfl⟩ : ∃ i, n = i + 1 := ⟨n - 1, by omega⟩
        refine answers_star (ih hm guarded.2 len (by omega)) fun q reads => ?_
        have lt := reads.length_lt k.consumes_body guarded.1
        have lt_budget := k.budget_lt (i := i) (len ▸ lt)
        refine k.answersAgain gap gaps hm guarded.1 (fun d hd n h => ?_) (by omega)
        exact ihl _ (by omega) hm (Nat.le_refl _) (guarded_mono guarded.2 le_top (Nat.le_refl _)) rfl h
      | ahead a ih =>
        simp only [Expr.height] at h
        obtain ⟨n, rfl⟩ : ∃ i, n = i + 1 := ⟨n - 1, by omega⟩
        exact answers_ahead (ih (wanting m hm) guarded len (by omega))
      | notAhead a ih =>
        simp only [Expr.height] at h
        obtain ⟨n, rfl⟩ : ∃ i, n = i + 1 := ⟨n - 1, by omega⟩
        exact answers_notAhead (ih (refusing m hm) guarded len (by omega))
      | call r =>
        simp only [Guarded, decide_eq_true_eq] at guarded
        simp only [Expr.height] at h
        obtain ⟨n, rfl⟩ : ∃ i, n = i + 1 := ⟨n - 1, by omega⟩
        have lower := k.budget_rank (l := l) guarded
        have := height_le r
        exact answers_call (ihi _ guarded (within m _ hm) (Nat.le_of_lt (k.rank_lt r)) (k.guarded r)
          len (by omega))
      | _ =>
        simp only [Expr.height] at h
        obtain ⟨n, rfl⟩ : ∃ i, n = i + 1 := ⟨n - 1, by omega⟩
        intro t
        rw [run]
        repeat' split
        all_goals simp

end Ranked

/-- The circumstances in which no gaps are skipped stay such. -/
lemma Mode.within_ne_normal {m : Mode} (h : m.atomicity ≠ .normal) (kind : RuleKind) :
    (m.within kind).atomicity ≠ .normal := by
  cases kind
  case compound | atomic => nofun
  all_goals exact h

lemma Mode.wanting_atomicity (m : Mode) : m.wanting.atomicity = m.atomicity := by
  unfold Mode.wanting
  split
  all_goals rfl

lemma Mode.refusing_atomicity (m : Mode) : m.refusing.atomicity = m.atomicity := by
  unfold Mode.refusing
  split
  all_goals rfl

namespace Ranking

variable (k : Ranking g)

/-- A gap comes to an answer. -/
lemma answers_gap {m : Mode} {c : Cursor} {n : Nat}
    (h : k.budget c.rest.length 0 + (1 + (Expr.star g.blank).height 1) ≤ n) :
    Answers g n m .gap c := by
  obtain ⟨n, rfl⟩ : ∃ i, n = i + 1 := ⟨n - 1, by omega⟩
  refine Peg.answers_gap fun _ => ?_
  refine k.answers 1 (Q := fun m => m.atomicity ≠ .normal) ?_ ?_ ?_ ?_ ?_
    (by nofun) (Nat.zero_le _) k.blank (by omega)
  · intro m hm n c h
    obtain ⟨n, rfl⟩ : ∃ i, n = i + 1 := ⟨n - 1, by omega⟩
    exact Peg.answers_gap fun normal => absurd normal hm
  · exact fun m kind hm => Mode.within_ne_normal hm kind
  · exact fun m hm => m.wanting_atomicity ▸ hm
  · exact fun m hm => m.refusing_atomicity ▸ hm
  · exact fun r => Nat.le_trans (Expr.height_le_height (by omega) _) (k.height_le r)

/-- A depth of evaluation that is enough for a text of so many characters. -/
def depth (length : Nat) : Nat :=
  k.budget length k.top + 1

/-- The evaluation of an expression in which all repetitions read something comes to an answer. -/
theorem answers_all {m : Mode} {e : Expr R} {c : Cursor} {n : Nat}
    (guarded : Guarded k.consumes k.rank k.top k.top e = true)
    (h : k.budget c.rest.length k.top + e.height (1 + (Expr.star g.blank).height 1) ≤ n) :
    Answers g n m e c := by
  refine k.answers _ (Q := fun _ => True) (fun _ _ n c h => k.answers_gap h) ?_ ?_ ?_ k.height_le
    trivial (Nat.le_refl _) guarded h
  all_goals simp

/-- The evaluation of a rule comes to an answer. -/
lemma answers_call {m : Mode} {r : R} {c : Cursor} {n : Nat} (h : k.depth c.rest.length ≤ n) :
    Answers g n m (.call r) c :=
  k.answers_all (by simp [Guarded, k.rank_lt]) h

include k in
/-- A grammar with a ranking reads each text in some way. -/
theorem exists_reads {m : Mode} {e : Expr R} {c : Cursor}
    (guarded : Guarded k.consumes k.rank k.top k.top e = true) :
    ∃ o, Reads g m (.once e) c o := by
  generalize depth : k.budget c.rest.length k.top + e.height (1 + (Expr.star g.blank).height 1) = n
  have answer := k.answers_all (m := m) guarded (Nat.le_of_eq depth) .none
  have told := Reads.of_run (n := n) (m := m) (e := e) (c := c) (a := .none) (g := g)
  generalize run g n m e c .none = o at answer told
  obtain ⟨⟨d, ts⟩ | _ | _, t⟩ := o
  · obtain ⟨stop, reads⟩ := told
    exact ⟨_, reads⟩
  · exact ⟨none, told⟩
  · exact absurd rfl answer

/-- What is read is what the text is parsed as, when the depth is enough. -/
theorem parse_of_reads {start : R} {text : List Char} {depth : Nat} {q : Match R}
    (enough : k.depth text.length ≤ depth)
    (h : Reads g .outset (.once (.call start)) ⟨0, text⟩ (some q)) :
    parse g depth start text = .accepted q.trees := by
  have answer := k.answers_call (m := .outset) (r := start) (c := ⟨0, text⟩) enough .none
  have told := Reads.of_run (n := depth) (m := .outset) (e := .call start) (c := ⟨0, text⟩)
    (a := .none) (g := g)
  rw [parse]
  generalize run g depth .outset (.call start) ⟨0, text⟩ .none = o at answer told ⊢
  obtain ⟨⟨d, ts⟩ | _ | _, t⟩ := o
  · obtain ⟨stop, reads⟩ := told
    cases h.unique reads
    rfl
  · cases h.unique told
  · exact absurd rfl answer

/-- A text that is not read is rejected, when the depth is enough. -/
theorem parse_of_fails {start : R} {text : List Char} {depth : Nat}
    (enough : k.depth text.length ≤ depth)
    (h : Reads g .outset (.once (.call start)) ⟨0, text⟩ none) :
    ∃ t, parse g depth start text = .rejected t := by
  have answer := k.answers_call (m := .outset) (r := start) (c := ⟨0, text⟩) enough .none
  have told := Reads.of_run (n := depth) (m := .outset) (e := .call start) (c := ⟨0, text⟩)
    (a := .none) (g := g)
  rw [parse]
  generalize run g depth .outset (.call start) ⟨0, text⟩ .none = o at answer told ⊢
  obtain ⟨⟨d, ts⟩ | _ | _, t⟩ := o
  · obtain ⟨stop, reads⟩ := told
    cases h.unique reads
  · exact ⟨t, rfl⟩
  · exact absurd rfl answer

end Ranking

end ScriptTyping.Peg
