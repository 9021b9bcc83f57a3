import ScriptTyping.Proofs.Peg.Extent
import ScriptTyping.Proofs.Peg.Idle

/-!
# Trees that begin where nothing is skipped

Where gaps are skipped, each part of what is read stands behind a gap that was read to its end, so its
trees begin at rest (`Reads.isFresh`), and so do the trees below those (`Tree.IsFresh.children`). A rule
that is read without gaps is the end of this.
-/

namespace ScriptTyping.Peg

variable {R : Type} {g : Grammar R} {source : List Char}

/-- A tree of a source that is read where gaps are skipped and none is left to skip. -/
def Tree.IsFresh (g : Grammar R) (source : List Char) (t : Tree R) : Prop :=
  AtRest g .outset ⟨t.start, source.drop t.start⟩ ∧ t.start ≤ source.length ∧ ∃ q,
    Reads g (Mode.outset.within (g.kind t.rule)) (.once (g.body t.rule))
      ⟨t.start, source.drop t.start⟩ (some q) ∧ t.children = q.trees

/-- The trees that are read from a place at rest are fresh, and further times begin with a gap. -/
lemma Reads.isFresh (bare : g.blank.isBare = true) {k : Task R} {c : Cursor} {q : Match R}
    (h : Reads g .outset k c (some q)) (w : c.Within source)
    (rest : ∀ e, k = .once e → AtRest g .outset c) : ∀ t ∈ q.trees, t.IsFresh g source := by
  generalize mode : Mode.outset = m at h
  generalize o : some q = o' at h
  induction h generalizing q
  case gap blanks _ =>
    cases o
    rw [show (_ : Match R).trees = [] from blanks.trees_eq_nil bare]
    exact List.forall_mem_nil _
  case seq first gap _ ih₁ _ ih₂ =>
    cases o
    have w₁ := gap.within (first.within w)
    cases mode
    have before := ih₁ w (fun _ _ => rest _ rfl) rfl rfl
    have behind := ih₂ w₁ (fun _ _ => gap.atRest) rfl rfl
    exact List.forall_mem_append.2 ⟨before, behind⟩
  case choiceFirst ih => exact ih w (fun _ _ => rest _ rfl) mode o
  case choiceSecond ih => exact ih w (fun _ _ => rest _ rfl) mode o
  case optSome ih => exact ih w (fun _ _ => rest _ rfl) mode o
  case starSome one _ ih₁ ih₂ =>
    cases o
    have first := ih₁ w (fun _ _ => rest _ rfl) mode rfl
    exact List.forall_mem_append.2 ⟨first, ih₂ (one.within w) (fun _ => nofun) mode rfl⟩
  case againSome gap one _ _ ih₁ ih₂ =>
    cases o
    have w₁ := gap.within w
    cases mode
    have first := ih₁ w₁ (fun _ _ => gap.atRest) rfl rfl
    exact List.forall_mem_append.2 ⟨first, ih₂ (one.within w₁) (fun _ => nofun) rfl rfl⟩
  case silent ih => exact ih w (fun _ _ => rest _ rfl) mode o
  case call r c q loud reads _ =>
    cases o
    cases mode
    have builds : (Mode.outset.around (g.kind r)).builds = true := by cases g.kind r <;> rfl
    obtain ⟨i, text⟩ := c
    obtain ⟨here, le⟩ := w
    dsimp only at here le
    subst here
    simp only [builds, if_true, List.forall_mem_singleton]
    exact ⟨rest _ rfl, le, q, reads, rfl⟩
  all_goals cases o
  all_goals exact List.forall_mem_nil _

/-- The trees below a fresh tree are fresh if gaps are skipped in it. -/
lemma Tree.IsFresh.children (bare : g.blank.isBare = true) {t : Tree R} (h : t.IsFresh g source)
    (normal : g.kind t.rule = .normal) : ∀ u ∈ t.children, u.IsFresh g source := by
  obtain ⟨rest, le, q, reads, below⟩ := h
  rw [normal] at reads
  rw [below]
  exact reads.isFresh bare ⟨rfl, le⟩ fun _ _ => rest

end ScriptTyping.Peg
