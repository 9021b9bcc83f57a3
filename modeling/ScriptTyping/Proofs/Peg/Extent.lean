import ScriptTyping.Proofs.Peg.Reads

/-!
# Where matches lie

A match covers a stretch of the text from the place where its evaluation began, and the trees it
leaves lie in this stretch one after the other. Each of them was read in turn: `Tree.IsRead` ties a
tree to the evaluation of its rule at its place in the source, and `Tree.IsRead.induction` proves a
property of all trees of a source from the children up.
-/

namespace ScriptTyping.Peg

variable {R : Type} {g : Grammar R}

namespace Cursor

/-- The text from a place to a later one. -/
def Leads (c : Cursor) (cs : List Char) (d : Cursor) : Prop :=
  c.rest = cs ++ d.rest ∧ d.index = c.index + cs.length

lemma Leads.refl (c : Cursor) : c.Leads [] c :=
  ⟨rfl, rfl⟩

lemma Leads.trans {c d e : Cursor} {cs ds : List Char} (h₁ : c.Leads cs d) (h₂ : d.Leads ds e) :
    c.Leads (cs ++ ds) e := by
  obtain ⟨r₁, i₁⟩ := h₁
  obtain ⟨r₂, i₂⟩ := h₂
  refine ⟨by rw [r₁, r₂, List.append_assoc], ?_⟩
  rw [i₂, i₁, List.length_append, Nat.add_assoc]

lemma Leads.index_le {c d : Cursor} {cs : List Char} (h : c.Leads cs d) : c.index ≤ d.index := by
  rw [h.2]
  exact Nat.le_add_right _ _

lemma Leads.upTo {c d : Cursor} {cs : List Char} (h : c.Leads cs d) : c.upTo d = cs := by
  obtain ⟨r, i⟩ := h
  simp [Cursor.upTo, r, i]

/-- A text that is skipped leads to the place after it. -/
lemma leads_of_skip? {c d : Cursor} {cs : List Char} (h : c.skip? cs = some d) : c.Leads cs d := by
  induction cs generalizing c with
  | nil =>
    obtain rfl : c = d := by simpa [skip?] using h
    exact .refl c
  | cons x xs ih =>
    obtain ⟨i, _ | ⟨y, ys⟩⟩ := c
    · simp [skip?] at h
    · simp only [skip?] at h
      split at h
      · subst x
        obtain ⟨r, j⟩ := ih h
        refine ⟨congrArg (y :: ·) r, ?_⟩
        simp only [List.length_cons] at j ⊢
        omega
      · cases h

/-- A place that lies in a source. -/
def Within (c : Cursor) (source : List Char) : Prop :=
  c.rest = source.drop c.index ∧ c.index ≤ source.length

lemma Within.leads {c d : Cursor} {cs source : List Char} (h : c.Within source)
    (l : c.Leads cs d) : d.Within source := by
  obtain ⟨r, i⟩ := h
  obtain ⟨r', i'⟩ := l
  have len : source.length - c.index = cs.length + d.rest.length := by
    rw [← List.length_drop, ← r, r', List.length_append]
  refine ⟨?_, by omega⟩
  rw [i', ← List.drop_drop, ← r, r', List.drop_left]

end Cursor

namespace Tree

/-- The number of characters before the end of a match. -/
def stop (t : Tree R) : Nat :=
  t.start + t.text.length

@[simp] lemma stop_node (r : R) (i : Nat) (cs : List Char) (ts : List (Tree R)) :
    (node r i cs ts).stop = i + cs.length := rfl

/-- A tree is another or lies below it. -/
inductive Under : Tree R → Tree R → Prop where
  | self {t} : Under t t
  | inside {t u v} : u ∈ t.children → Under v u → Under v t

lemma Under.trans {t u v : Tree R} (h : t.Under u) (h' : u.Under v) : t.Under v := by
  induction h' with
  | self => exact h
  | inside child _ ih => exact .inside child (ih h)

/-- Trees that lie between two places, each after the ones before it. -/
structure Spread (lo hi : Nat) (ts : List (Tree R)) : Prop where
  apart : ts.Pairwise fun t u => t.stop ≤ u.start
  lo_le : ∀ t ∈ ts, lo ≤ t.start
  le_hi : ∀ t ∈ ts, t.stop ≤ hi

lemma start_le_stop (t : Tree R) : t.start ≤ t.stop :=
  Nat.le_add_right _ _

lemma Spread.nil (lo hi : Nat) : Spread lo hi ([] : List (Tree R)) :=
  ⟨.nil, by simp, by simp⟩

lemma Spread.widen {lo lo' hi hi' : Nat} {ts : List (Tree R)} (h : Spread lo hi ts)
    (below : lo' ≤ lo) (above : hi ≤ hi') : Spread lo' hi' ts :=
  ⟨h.apart, fun t ht => Nat.le_trans below (h.lo_le t ht),
    fun t ht => Nat.le_trans (h.le_hi t ht) above⟩

/-- Trees of one stretch followed by those of a later one. -/
lemma Spread.append {lo mid mid' hi : Nat} {ts us : List (Tree R)} (h₁ : Spread lo mid ts)
    (h₂ : Spread mid' hi us) (l₁ : lo ≤ mid) (l₂ : mid ≤ mid') (l₃ : mid' ≤ hi) :
    Spread lo hi (ts ++ us) := by
  refine ⟨List.pairwise_append.2 ⟨h₁.apart, h₂.apart, fun t ht u hu => ?_⟩, ?_, ?_⟩
  · have := h₁.le_hi t ht
    have := h₂.lo_le u hu
    omega
  · intro t ht
    rcases List.mem_append.1 ht with ht | ht
    · exact h₁.lo_le t ht
    · have := h₂.lo_le t ht
      omega
  · intro t ht
    rcases List.mem_append.1 ht with ht | ht
    · have := h₁.le_hi t ht
      omega
    · exact h₂.le_hi t ht

end Tree

namespace Reads

variable {m : Mode} {k : Task R} {c : Cursor} {q : Match R}

/-- A match covers the text from the place where its evaluation began to the place it reached. -/
lemma leads (h : Reads g m k c (some q)) : ∃ cs, c.Leads cs q.place := by
  generalize e : some q = o at h
  induction h generalizing q
  case text hs => cases e; exact ⟨_, Cursor.leads_of_skip? hs⟩
  case char => cases e; exact ⟨[_], rfl, rfl⟩
  case gap q _ _ ih => cases e; exact ih (q := q) rfl
  case seq ih₁ ih₂ ih₃ =>
    cases e
    obtain ⟨cs₁, l₁⟩ := ih₁ rfl
    obtain ⟨cs₂, l₂⟩ := ih₂ rfl
    obtain ⟨cs₃, l₃⟩ := ih₃ rfl
    exact ⟨_, (l₁.trans l₂).trans l₃⟩
  case choiceFirst ih => exact ih e
  case choiceSecond ih₂ => exact ih₂ e
  case optSome ih => exact ih e
  case starSome ih₁ ih₂ =>
    cases e
    obtain ⟨cs₁, l₁⟩ := ih₁ rfl
    obtain ⟨cs₂, l₂⟩ := ih₂ rfl
    exact ⟨_, l₁.trans l₂⟩
  case againSome ih₁ ih₂ ih₃ =>
    cases e
    obtain ⟨cs₁, l₁⟩ := ih₁ rfl
    obtain ⟨cs₂, l₂⟩ := ih₂ rfl
    obtain ⟨cs₃, l₃⟩ := ih₃ rfl
    exact ⟨_, (l₁.trans l₂).trans l₃⟩
  case silent ih => exact ih e
  case call q _ _ ih => cases e; exact ih (q := q) rfl
  all_goals cases e
  all_goals exact ⟨[], .refl _⟩

lemma index_le (h : Reads g m k c (some q)) : c.index ≤ q.place.index := by
  obtain ⟨cs, l⟩ := h.leads
  exact l.index_le

/-- A match in a source ends in it. -/
lemma within {source : List Char} (h : Reads g m k c (some q)) (w : c.Within source) :
    q.place.Within source := by
  obtain ⟨cs, l⟩ := h.leads
  exact w.leads l

/-- The trees of a match lie in it one after the other. -/
lemma spread (h : Reads g m k c (some q)) : Tree.Spread c.index q.place.index q.trees := by
  generalize e : some q = o at h
  induction h generalizing q
  case gap q _ _ ih => cases e; exact ih (q := q) rfl
  case seq h₁ h₂ h₃ ih₁ _ ih₃ =>
    cases e
    exact (ih₁ rfl).append (ih₃ rfl) h₁.index_le h₂.index_le h₃.index_le
  case choiceFirst ih => exact ih e
  case choiceSecond ih₂ => exact ih₂ e
  case optSome ih => exact ih e
  case starSome h₁ h₂ ih₁ ih₂ =>
    cases e
    exact (ih₁ rfl).append (ih₂ rfl) h₁.index_le (Nat.le_refl _) h₂.index_le
  case againSome h₁ h₂ h₃ _ ih₂ ih₃ =>
    cases e
    exact ((ih₂ rfl).append (ih₃ rfl) h₂.index_le (Nat.le_refl _) h₃.index_le).widen h₁.index_le (Nat.le_refl _)
  case silent ih => exact ih e
  case call h ih =>
    cases e
    split
    · obtain ⟨cs, l⟩ := h.leads
      refine ⟨List.pairwise_singleton _ _, by simp [Tree.start], ?_⟩
      simp only [List.mem_singleton, forall_eq, Tree.stop_node, l.upTo]
      exact Nat.le_of_eq l.2.symm
    · exact ih rfl
  all_goals cases e
  all_goals exact .nil _ _

end Reads

/-- A tree of a source: the evaluation of its rule at its place left it. -/
def Tree.IsRead (g : Grammar R) (source : List Char) (t : Tree R) : Prop :=
  t.start ≤ source.length ∧ g.kind t.rule ≠ .silent ∧ ∃ m q,
    (Mode.around m (g.kind t.rule)).builds = true ∧
    Reads g (m.within (g.kind t.rule)) (.once (g.body t.rule)) ⟨t.start, source.drop t.start⟩
      (some q) ∧
    t.text = Cursor.upTo ⟨t.start, source.drop t.start⟩ q.place ∧
    t.children = q.trees

/-- The trees of a match in a source are read. -/
lemma Reads.isRead {m : Mode} {k : Task R} {c : Cursor} {q : Match R} {source : List Char}
    (h : Reads g m k c (some q)) (w : c.Within source) :
    ∀ t ∈ q.trees, t.IsRead g source := by
  generalize e : some q = o at h
  induction h generalizing q
  case gap ih => cases e; exact fun t ht => ih w rfl t ht
  case seq h₁ h₂ _ ih₁ _ ih₃ =>
    cases e
    exact List.forall_mem_append.2 ⟨ih₁ w rfl, ih₃ (h₂.within (h₁.within w)) rfl⟩
  case choiceFirst ih => exact ih w e
  case choiceSecond ih₂ => exact ih₂ w e
  case optSome ih => exact ih w e
  case starSome h₁ _ ih₁ ih₂ =>
    cases e
    exact List.forall_mem_append.2 ⟨ih₁ w rfl, ih₂ (h₁.within w) rfl⟩
  case againSome h₁ h₂ _ _ ih₂ ih₃ =>
    cases e
    have w₁ := h₁.within w
    exact List.forall_mem_append.2 ⟨ih₂ w₁ rfl, ih₃ (h₂.within w₁) rfl⟩
  case silent ih => exact ih w e
  -- Only a call leaves a tree of its own, and only where trees are built.
  case call m r c q loud h ih =>
    cases e
    split
    · rename_i builds
      obtain ⟨i, rest⟩ := c
      obtain ⟨here, le⟩ := w
      dsimp only at here le
      subst here
      simp only [List.mem_singleton, forall_eq]
      exact ⟨le, loud, m, q, builds, h, rfl, rfl⟩
    · exact ih w rfl
  all_goals cases e
  all_goals simp

/-- A text that is accepted is read as one tree from its beginning. -/
lemma isRead_of_parse {depth : Nat} {start : R} {source : List Char} {ts : List (Tree R)}
    (loud : g.kind start ≠ .silent) (h : parse g depth start source = .accepted ts) :
    ∃ t, ts = [t] ∧ t.rule = start ∧ t.start = 0 ∧ t.IsRead g source := by
  have told := Reads.of_run (g := g) (n := depth) (m := .outset) (e := .call start)
    (c := ⟨0, source⟩) (a := .none)
  rw [parse] at h
  generalize run g depth .outset (.call start) ⟨0, source⟩ .none = o at h told
  obtain ⟨⟨c, us⟩ | _ | _, a⟩ := o
  · cases h
    obtain ⟨stop, reads⟩ := told
    have within : Cursor.Within ⟨0, source⟩ source := ⟨rfl, Nat.zero_le _⟩
    have each := reads.isRead within
    cases reads with
    | silent quiet _ => exact absurd quiet loud
    | @call _ _ _ q _ inner =>
      have builds : (Mode.outset.around (g.kind start)).builds = true := by
        cases g.kind start <;> decide
      simp only [builds, if_true] at each ⊢
      exact ⟨_, rfl, rfl, rfl, each _ (List.mem_singleton_self _)⟩
  · cases h
  · cases h

namespace Tree.IsRead

variable {source : List Char}

/-- The trees below a tree of a source are read in turn. -/
lemma children {t : Tree R} (h : t.IsRead g source) : ∀ u ∈ t.children, u.IsRead g source := by
  obtain ⟨le, _, m, q, _, reads, _, below⟩ := h
  rw [below]
  exact reads.isRead ⟨rfl, le⟩

/-- A tree inside a tree of a source is read. -/
lemma under {t u : Tree R} (h : t.IsRead g source) (below : u.Under t) : u.IsRead g source := by
  induction below with
  | self => exact h
  | inside hv _ ih => exact ih (h.children _ hv)

/-- The trees below a tree lie in it one after the other. -/
lemma spread {t : Tree R} (h : t.IsRead g source) : Spread t.start t.stop t.children := by
  obtain ⟨le, _, m, q, _, reads, text, below⟩ := h
  obtain ⟨cs, l⟩ := reads.leads
  rw [below, stop, text, l.upTo]
  have := reads.spread
  rwa [l.2] at this

/-- The text of a tree stands in the source at its place. -/
lemma text_eq {t : Tree R} (h : t.IsRead g source) :
    t.text = (source.drop t.start).take t.text.length ∧ t.stop ≤ source.length := by
  obtain ⟨le, _, m, q, _, reads, text, _⟩ := h
  obtain ⟨cs, l⟩ := reads.leads
  have here : source.drop t.start = cs ++ q.place.rest := l.1
  have len : cs.length + q.place.rest.length = source.length - t.start := by
    rw [← List.length_drop, here, List.length_append]
  rw [stop, text, l.upTo]
  refine ⟨?_, by omega⟩
  rw [here, List.take_left]

/-- A property holds of all trees of a source if each has it once the trees below it do. -/
lemma induction {P : Tree R → Prop}
    (step : ∀ t, t.IsRead g source → (∀ u ∈ t.children, P u) → P t) :
    ∀ t, IsRead g source t → P t
  | node _ _ _ ts, h => step _ h fun u hu => induction step u (h.children u hu)
  termination_by t => sizeOf t
  decreasing_by
    have below : sizeOf u < sizeOf ts := List.sizeOf_lt_of_mem hu
    simp only [node.sizeOf_spec]
    omega

end Tree.IsRead

end ScriptTyping.Peg
