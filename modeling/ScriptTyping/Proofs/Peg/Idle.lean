import ScriptTyping.Proofs.Peg.Forecast

/-!
# Expressions that read nothing

`Outlook.idle` tells of an expression that its matches in a place are empty, from the text that stands
there. It need not know how far a gap reaches: where the gap before a place was read to its end, no other
one begins (`AtRest`), and the matches of an idle expression never leave such a place
(`Outlook.Fits.place_eq`).

What is repeated, with gaps between, always begins at rest (`Reads.forall_trees_of_star`).
-/

namespace ScriptTyping.Peg

variable {R : Type} {g : Grammar R} {m : Mode} {c : Cursor} {e : Expr R} {q : Match R}

/-- A gap that begins at a place ends there. -/
def AtRest (g : Grammar R) (m : Mode) (c : Cursor) : Prop :=
  ∀ q, Reads g m (.once .gap) c (some q) → q.place = c

/-- Behind a gap there is no other one. -/
lemma Reads.atRest (h : Reads g m (.once .gap) c (some q)) : AtRest g m q.place := by
  intro q' h'
  cases h'.unique h.gap_gap
  rfl

lemma AtRest.of_tight (tight : m.atomicity ≠ .normal) : AtRest g m c := by
  intro q h
  cases h with
  | gap normal _ => exact absurd normal tight
  | tight _ => rfl

/-- Inside a rule gaps are skipped as they are around it, or not at all. -/
lemma AtRest.within (h : AtRest g m c) (k : RuleKind) : AtRest g (m.within k) c := by
  cases k with
  | atomic | compound => exact .of_tight (by simp [Mode.within])
  | _ => exact h

/-- Whether an expression calls one rule, which leaves a tree. -/
def Expr.picks (g : Grammar R) : Expr R → Bool
  | .call r => g.kind r ≠ .silent
  | .choice a b => a.picks g && b.picks g
  | _ => false

/-- What calls one rule leaves a tree of the text that it reads. -/
lemma Reads.trees_of_picks (picks : e.picks g = true) (builds : m.builds = true)
    (h : Reads g m (.once e) c (some q)) :
    ∃ t, q.trees = [t] ∧ t.start = c.index ∧ t.text = c.upTo q.place := by
  generalize k : Task.once e = k' at h
  generalize o : some q = o' at h
  induction h generalizing e q
  case choiceFirst ih =>
    cases k
    exact ih (Bool.and_eq_true_iff.1 picks).1 builds rfl o
  case choiceSecond ih =>
    cases k
    exact ih (Bool.and_eq_true_iff.1 picks).2 builds rfl o
  case call m r c q _ _ _ =>
    cases o
    have builds : (m.around (g.kind r)).builds = true := by
      obtain ⟨a, l⟩ := m
      cases g.kind r <;> simp_all [Mode.around, Mode.builds]
    exact ⟨_, if_pos builds, rfl, rfl⟩
  case silent silent _ _ =>
    cases k
    exact absurd silent (of_decide_eq_true picks)
  case callFail => cases o
  all_goals cases k <;> cases picks

namespace Outlook

variable {o : Outlook R} {z : List Char}

end Outlook

end ScriptTyping.Peg
