import Mathlib.Logic.Relation
import ScriptTyping.Proofs.Peg.Total

/-!
# Evaluations inside evaluations

`Needs g x y` says that the evaluation `x` makes the evaluation `y`: it has one constructor for each
call that `run` and `again` make of themselves.

Under a `Ranking` each evaluation inside another has less of the text left, or stands at the same
place and has fewer rules to choose from, or else it is of a smaller expression (`Ranking.descends`).
What holds of one step holds of all chains of steps:

* `Ranking.acc`: no chain of evaluations inside evaluations goes on for ever.
* `Ranking.index_lt_of_repeats`: what is evaluated inside itself is evaluated at a later place, so
  that no rule is recursive on its left.
* `Ranking.index_lt_of_repeated`: each time of a repetition reads something.
-/

namespace ScriptTyping.Peg
open Relation

variable {R : Type} {g : Grammar R}

/-- The evaluation of a task in some circumstances at some place. -/
structure Evaluation (R : Type) where
  mode : Mode
  task : Task R
  place : Cursor

/-- The evaluation of a task makes another. -/
inductive Needs (g : Grammar R) : Evaluation R → Evaluation R → Prop where
  | gap {m c} :
    m.atomicity = .normal →
    Needs g ⟨m, .once .gap, c⟩ ⟨{ m with atomicity := .atomic }, .once (.star g.blank), c⟩
  | seqFirst {m a b c} :
    Needs g ⟨m, .once (.seq a b), c⟩ ⟨m, .once a, c⟩
  | seqGap {m a b c q} :
    Reads g m (.once a) c (some q) →
    Needs g ⟨m, .once (.seq a b), c⟩ ⟨m, .once .gap, q.place⟩
  | seqSecond {m a b c q₁ q₂} :
    Reads g m (.once a) c (some q₁) →
    Reads g m (.once .gap) q₁.place (some q₂) →
    Needs g ⟨m, .once (.seq a b), c⟩ ⟨m, .once b, q₂.place⟩
  | choiceFirst {m a b c} :
    Needs g ⟨m, .once (.choice a b), c⟩ ⟨m, .once a, c⟩
  | choiceSecond {m a b c} :
    Reads g m (.once a) c none →
    Needs g ⟨m, .once (.choice a b), c⟩ ⟨m, .once b, c⟩
  | opt {m a c} :
    Needs g ⟨m, .once (.opt a), c⟩ ⟨m, .once a, c⟩
  | starFirst {m a c} :
    Needs g ⟨m, .once (.star a), c⟩ ⟨m, .once a, c⟩
  | starAgain {m a c q} :
    Reads g m (.once a) c (some q) →
    Needs g ⟨m, .once (.star a), c⟩ ⟨m, .again a, q.place⟩
  | againGap {m a c} :
    Needs g ⟨m, .again a, c⟩ ⟨m, .once .gap, c⟩
  | againFirst {m a c q} :
    Reads g m (.once .gap) c (some q) →
    Needs g ⟨m, .again a, c⟩ ⟨m, .once a, q.place⟩
  | againAgain {m a c q₁ q₂} :
    Reads g m (.once .gap) c (some q₁) →
    Reads g m (.once a) q₁.place (some q₂) →
    Needs g ⟨m, .again a, c⟩ ⟨m, .again a, q₂.place⟩
  | ahead {m a c} :
    Needs g ⟨m, .once (.ahead a), c⟩ ⟨m.wanting, .once a, c⟩
  | notAhead {m a c} :
    Needs g ⟨m, .once (.notAhead a), c⟩ ⟨m.refusing, .once a, c⟩
  | call {m r c} :
    Needs g ⟨m, .once (.call r), c⟩ ⟨m.within (g.kind r), .once (g.body r), c⟩

/-- How deep an evaluation goes without the rules in its expression. -/
def Evaluation.height (g : Grammar R) (x : Evaluation R) : Nat :=
  x.task.expr.height (if x.mode.atomicity = .normal then 1 + (Expr.star g.blank).height 1 else 1)

/-- A later place has less of the text left, unless it is the same. -/
lemma Cursor.Leads.shorter_or_eq {c d : Cursor} {cs : List Char} (h : c.Leads cs d) :
    d.rest.length < c.rest.length ∨ d = c := by
  obtain ⟨rest, index⟩ := h
  cases cs with
  | nil =>
    right
    obtain ⟨i, xs⟩ := c
    obtain ⟨j, ys⟩ := d
    simp only [List.nil_append, List.length_nil, Nat.add_zero] at rest index
    rw [rest, index]
  | cons x xs =>
    left
    rw [rest, List.length_append, List.length_cons]
    omega

lemma Cursor.Leads.index_lt {c d : Cursor} {cs : List Char} (h : c.Leads cs d)
    (shorter : d.rest.length < c.rest.length) : c.index < d.index := by
  obtain ⟨rest, index⟩ := h
  rw [rest, List.length_append] at shorter
  omega

namespace Needs

variable {x y : Evaluation R}

/-- No evaluation goes back to an earlier place. -/
lemma leads (h : Needs g x y) : ∃ cs, x.place.Leads cs y.place := by
  cases h with
  | seqGap reads => exact reads.leads
  | seqSecond reads gap =>
    obtain ⟨cs, l⟩ := reads.leads
    obtain ⟨ds, l'⟩ := gap.leads
    exact ⟨_, l.trans l'⟩
  | starAgain reads => exact reads.leads
  | againFirst gap => exact gap.leads
  | againAgain gap reads =>
    obtain ⟨cs, l⟩ := gap.leads
    obtain ⟨ds, l'⟩ := reads.leads
    exact ⟨_, l.trans l'⟩
  | _ => exact ⟨[], .refl _⟩

lemma leads_all (h : ReflTransGen (Needs g) x y) : ∃ cs, x.place.Leads cs y.place := by
  induction h with
  | refl => exact ⟨[], .refl _⟩
  | tail _ needs ih =>
    obtain ⟨cs, l⟩ := ih
    obtain ⟨ds, l'⟩ := needs.leads
    exact ⟨_, l.trans l'⟩

end Needs

namespace Ranking

variable (k : Ranking g)

/-- The evaluation calls only rules of ranks below `i` before it has read a character, and whatever
it repeats reads something. -/
def Guards (i : Nat) (x : Evaluation R) : Prop :=
  Guarded k.consumes k.rank k.top i x.task.expr = true

/-- An evaluation that stands below one whose rules have ranks below `i`: less of the text is left,
or it may call fewer rules, or it is of a smaller expression. -/
def Below (i : Nat) (x y : Evaluation R) : Prop :=
  (y.place.rest.length < x.place.rest.length ∧ k.Guards k.top y) ∨
    y.place = x.place ∧ ∃ j ≤ i, k.Guards j y ∧ (j = i → y.height g < x.height g)

variable {k} {x y z : Evaluation R} {i : Nat}

lemma Guards.mono {j : Nat} (h : k.Guards i x) (le : i ≤ j) (le_top : j ≤ k.top) : k.Guards j x :=
  guarded_mono h le le_top

lemma Guards.to_top (h : k.Guards i x) (le : i ≤ k.top) : k.Guards k.top x :=
  h.mono le (Nat.le_refl _)

/-- What is repeated cannot be empty. -/
lemma Guards.consumes {e : Expr R} (h : k.Guards i x) (repeats : x.task.expr = .star e) :
    Consumes k.consumes e = true := by
  rw [Guards, repeats, Guarded, Bool.and_eq_true] at h
  exact h.1

/-- A part of an expression at a place that was reached from where the expression began. -/
lemma Below.part {m : Mode} {t u : Task R} {c d : Cursor} {cs : List Char} (l : c.Leads cs d)
    (le : i ≤ k.top) (guards : k.Guards i ⟨m, u, d⟩)
    (lower : Evaluation.height g ⟨m, u, d⟩ < Evaluation.height g ⟨m, t, c⟩) :
    k.Below i ⟨m, t, c⟩ ⟨m, u, d⟩ := by
  obtain shorter | rfl := l.shorter_or_eq
  · exact .inl ⟨shorter, guards.to_top le⟩
  · exact .inr ⟨rfl, i, Nat.le_refl _, guards, fun _ => lower⟩

/-- Each evaluation inside another stands below it. -/
theorem descends (h : Needs g x y) (le : i ≤ k.top) (guards : k.Guards i x) : k.Below i x y := by
  -- One case per call. Behind something that consumed, less of the text is left; everywhere else the
  -- expression is lower, or the rule of a lower rank.
  cases h with
  | gap normal =>
    refine .inr ⟨rfl, i, Nat.le_refl _, guarded_mono k.blank (Nat.zero_le _) le, fun _ => ?_⟩
    simp only [Evaluation.height, Task.expr, normal, Expr.height]
    simp
  | seqFirst =>
    simp only [Guards, Task.expr, Guarded, Bool.and_eq_true] at guards
    refine .part (.refl _) le guards.1 ?_
    simp only [Evaluation.height, Task.expr, Expr.height]
    omega
  | seqGap reads =>
    obtain ⟨cs, l⟩ := reads.leads
    refine .part l le rfl ?_
    simp only [Evaluation.height, Task.expr, Expr.height]
    omega
  | @seqSecond m a b c q₁ q₂ reads gap =>
    simp only [Guards, Task.expr, Guarded, Bool.and_eq_true] at guards
    by_cases consumes : Consumes k.consumes a = true
    · rw [if_pos consumes] at guards
      have lt := reads.length_lt k.consumes_body consumes
      exact .inl ⟨Nat.lt_of_le_of_lt gap.length_le lt, guards.2⟩
    · rw [if_neg consumes] at guards
      obtain ⟨cs, l⟩ := reads.leads
      obtain ⟨ds, l'⟩ := gap.leads
      refine .part (l.trans l') le guards.2 ?_
      simp only [Evaluation.height, Task.expr, Expr.height]
      omega
  | choiceFirst =>
    simp only [Guards, Task.expr, Guarded, Bool.and_eq_true] at guards
    refine .part (.refl _) le guards.1 ?_
    simp only [Evaluation.height, Task.expr, Expr.height]
    omega
  | choiceSecond _ =>
    simp only [Guards, Task.expr, Guarded, Bool.and_eq_true] at guards
    refine .part (.refl _) le guards.2 ?_
    simp only [Evaluation.height, Task.expr, Expr.height]
    omega
  | opt =>
    refine .part (.refl _) le guards ?_
    simp only [Evaluation.height, Task.expr, Expr.height]
    omega
  | starFirst =>
    simp only [Guards, Task.expr, Guarded, Bool.and_eq_true] at guards
    refine .part (.refl _) le guards.2 ?_
    simp only [Evaluation.height, Task.expr, Expr.height]
    omega
  | starAgain reads =>
    exact .inl ⟨reads.length_lt k.consumes_body (guards.consumes rfl), guards.to_top le⟩
  | againGap =>
    refine .part (.refl _) le rfl ?_
    simp only [Evaluation.height, Task.expr, Expr.height]
    omega
  | againFirst gap =>
    simp only [Guards, Task.expr, Guarded, Bool.and_eq_true] at guards
    obtain ⟨cs, l⟩ := gap.leads
    refine .part l le guards.2 ?_
    simp only [Evaluation.height, Task.expr, Expr.height]
    omega
  | againAgain gap reads =>
    have lt := reads.length_lt k.consumes_body (guards.consumes rfl)
    exact .inl ⟨Nat.lt_of_lt_of_le lt gap.length_le, guards.to_top le⟩
  | ahead =>
    refine .inr ⟨rfl, i, Nat.le_refl _, guards, fun _ => ?_⟩
    simp only [Evaluation.height, Task.expr, Expr.height, Mode.wanting_atomicity]
    omega
  | notAhead =>
    refine .inr ⟨rfl, i, Nat.le_refl _, guards, fun _ => ?_⟩
    simp only [Evaluation.height, Task.expr, Expr.height, Mode.refusing_atomicity]
    omega
  | @call m r c =>
    have lt : k.rank r < i := of_decide_eq_true guards
    exact .inr ⟨rfl, k.rank r, Nat.le_of_lt lt, k.guarded r, fun e => absurd e (Nat.ne_of_lt lt)⟩

/-- No chain of evaluations inside evaluations goes on for ever. -/
theorem acc (le : i ≤ k.top) (guards : k.Guards i x) : Acc (fun y x => Needs g x y) x := by
  -- what is left of the text, then the rules that may be called, then the expression
  generalize left : x.place.rest.length = l
  induction l using Nat.strongRecOn generalizing i x with
  | ind l ihl =>
    induction i using Nat.strongRecOn generalizing x with
    | ind i ihi =>
      generalize high : x.height g = n
      induction n using Nat.strongRecOn generalizing x with
      | ind n ihn =>
        refine .intro x fun y needs => ?_
        obtain ⟨shorter, top⟩ | ⟨place, j, le_i, guards', lower⟩ := descends needs le guards
        · exact ihl _ (left ▸ shorter) (Nat.le_refl _) top rfl
        · rw [← place] at left
          obtain lt | rfl := Nat.lt_or_eq_of_le le_i
          · exact ihi j lt (Nat.le_trans le_i le) guards' left
          · exact ihn _ (high ▸ lower rfl) guards' left rfl

/-- All that stands inside an evaluation stands below it. -/
lemma descends_all (h : TransGen (Needs g) x y) (le : i ≤ k.top) (guards : k.Guards i x) :
    k.Below i x y := by
  induction h with
  | single needs => exact descends needs le guards
  | tail _ needs ih =>
    obtain ⟨shorter, top⟩ | ⟨place, j, le_i, guards', lower⟩ := ih
    · obtain ⟨shorter', top'⟩ | ⟨place', j, le_top, guards', -⟩ :=
        descends needs (Nat.le_refl _) top
      · exact .inl ⟨Nat.lt_trans shorter' shorter, top'⟩
      · exact .inl ⟨place' ▸ shorter, guards'.to_top le_top⟩
    · obtain ⟨shorter', top'⟩ | ⟨place', j', le_j, guards'', lower'⟩ :=
        descends needs (Nat.le_trans le_i le) guards'
      · exact .inl ⟨place ▸ shorter', top'⟩
      · refine .inr ⟨place'.trans place, j', Nat.le_trans le_j le_i, guards'', fun e => ?_⟩
        obtain rfl : j = i := Nat.le_antisymm le_i (e ▸ le_j)
        exact Nat.lt_trans (lower' e) (lower rfl)

/-- What stands inside an evaluation that reads something with each time of a repetition does so as
well. -/
lemma guards_of_reaches (h : ReflTransGen (Needs g) x y) (guards : k.Guards k.top x) :
    k.Guards k.top y := by
  obtain rfl | inside := reflTransGen_iff_eq_or_transGen.1 h
  · exact guards
  · obtain ⟨-, top⟩ | ⟨-, j, le, guards', -⟩ := descends_all inside (Nat.le_refl _) guards
    · exact top
    · exact guards'.to_top le

/-- What is evaluated inside itself, in circumstances that let it go as deep, is evaluated at a later
place. -/
theorem index_lt_of_repeats (guards : k.Guards k.top x) (inside : TransGen (Needs g) x y)
    (same : y.task = x.task) (deep : x.height g ≤ y.height g) : x.place.index < y.place.index := by
  obtain ⟨cs, l⟩ := Needs.leads_all inside.to_reflTransGen
  refine l.index_lt ?_
  -- a chain that stays at its place lowers the bound on the ranks, but what fits one task fits the other
  have later : ∀ i ≤ k.top, k.Guards i x → y.place.rest.length < x.place.rest.length := by
    intro i
    induction i using Nat.strongRecOn with
    | ind i ih =>
      intro le fits
      obtain ⟨shorter, -⟩ | ⟨-, j, le_i, fits', lower⟩ := descends_all inside le fits
      · exact shorter
      · obtain lt | rfl := Nat.lt_or_eq_of_le le_i
        · rw [Guards, same] at fits'
          exact ih j lt (Nat.le_trans le_i le) fits'
        · exact absurd (lower rfl) (Nat.not_lt_of_le deep)
  exact later k.top (Nat.le_refl _) guards

/-- Each time of a repetition reads something. -/
theorem index_lt_of_repeated {e : Expr R} (guards : k.Guards k.top x) (repeats : x.task.expr = .star e)
    {m : Mode} {c : Cursor} {q : Match R} (reads : Reads g m (.once e) c (some q)) :
    c.index < q.place.index := by
  exact reads.index_lt k.consumes_body (guards.consumes repeats)

end Ranking

end ScriptTyping.Peg
