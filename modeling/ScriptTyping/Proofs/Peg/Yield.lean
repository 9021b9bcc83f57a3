import ScriptTyping.Proofs.Peg.Extent

/-!
# What an expression leaves

`Yields g F e ps` says that the values `ps` are what a match of `e` may leave, one for each tree,
when `F r p` says that `p` may stand for a match of the rule `r`. It reads an expression as a regular
expression over rules: order, choice and repetition are kept, text and what is only looked at are
forgotten. `Spells e cs` says that the text `cs` may be matched by `e` where no gaps are skipped.

The trees of a match are yielded by its expression (`Reads.yields`), and the text of a token is
spelled by the expression of its rule (`Tree.IsRead.spells`).
-/

namespace ScriptTyping.Peg

variable {R α β : Type} {g : Grammar R}

/-- The values that a match of an expression may leave. -/
def Yields (g : Grammar R) (F : R → α → Prop) : Expr R → List α → Prop
  | .seq a b, ps => ∃ qs rs, ps = qs ++ rs ∧ Yields g F a qs ∧ Yields g F b rs
  | .choice a b, ps => Yields g F a ps ∨ Yields g F b ps
  | .opt a, ps => ps = [] ∨ Yields g F a ps
  | .star a, ps => ∃ pss : List (List α), ps = pss.flatten ∧ ∀ qs ∈ pss, Yields g F a qs
  | .call r, ps => g.kind r = .silent ∨ ∃ p, ps = [p] ∧ F r p
  | .gap, _ => True
  | _, ps => ps = []

/-- The texts that an expression may match without gaps. Of what a rule stands for nothing is
said. -/
def Spells : Expr R → List Char → Prop
  | .text w, cs => cs = w
  | .char p, cs => ∃ x, cs = [x] ∧ p x = true
  | .seq a b, cs => ∃ xs ys, cs = xs ++ ys ∧ Spells a xs ∧ Spells b ys
  | .choice a b, cs => Spells a cs ∨ Spells b cs
  | .opt a, cs => cs = [] ∨ Spells a cs
  | .star a, cs => ∃ css : List (List Char), cs = css.flatten ∧ ∀ xs ∈ css, Spells a xs
  | .call _, _ => True
  | _, cs => cs = []

section Yields

variable {F : R → α → Prop} {a b d : Expr R} {ps : List α}

@[simp] lemma yields_empty : Yields g F .empty ps ↔ ps = [] := .rfl

@[simp] lemma yields_text {w : List Char} : Yields g F (.text w) ps ↔ ps = [] := .rfl

@[simp] lemma yields_char {p : Char → Bool} : Yields g F (.char p) ps ↔ ps = [] := .rfl

@[simp] lemma yields_finish : Yields g F .finish ps ↔ ps = [] := .rfl

@[simp] lemma yields_ahead : Yields g F (.ahead a) ps ↔ ps = [] := .rfl

@[simp] lemma yields_notAhead : Yields g F (.notAhead a) ps ↔ ps = [] := .rfl

@[simp] lemma yields_choice :
    Yields g F (.choice a b) ps ↔ Yields g F a ps ∨ Yields g F b ps := .rfl

lemma yields_oneOf {es : List (Expr R)} :
    Yields g F (.oneOf (a :: es)) ps ↔ ∃ e ∈ a :: es, Yields g F e ps := by
  induction es generalizing a with
  | nil => simp [Expr.oneOf]
  | cons d ds ih =>
    rw [Expr.oneOf, yields_choice, ih]
    · simp
    · exact List.cons_ne_nil d ds

@[simp] lemma yields_opt : Yields g F (.opt a) ps ↔ ps = [] ∨ Yields g F a ps := .rfl

lemma yields_seq :
    Yields g F (.seq a b) ps ↔ ∃ qs rs, ps = qs ++ rs ∧ Yields g F a qs ∧ Yields g F b rs := .rfl

lemma yields_star : Yields g F (.star a) ps ↔
    ∃ pss : List (List α), ps = pss.flatten ∧ ∀ qs ∈ pss, Yields g F a qs := .rfl

lemma yields_call {r : R} (loud : g.kind r ≠ .silent) :
    Yields g F (.call r) ps ↔ ∃ p, ps = [p] ∧ F r p := by
  simp [Yields, loud]

/-- What leaves nothing may be passed over. -/
lemma yields_seq_of_nil (h : ∀ qs, Yields g F a qs ↔ qs = []) :
    Yields g F (.seq a b) ps ↔ Yields g F b ps := by
  simp only [yields_seq, h]
  exact ⟨fun ⟨_, _, e, rfl, hb⟩ => e ▸ hb, fun hb => ⟨[], ps, rfl, rfl, hb⟩⟩

@[simp] lemma yields_text_seq {w : List Char} :
    Yields g F (.seq (.text w) b) ps ↔ Yields g F b ps :=
  yields_seq_of_nil fun _ => .rfl

@[simp] lemma yields_empty_seq : Yields g F (.seq .empty b) ps ↔ Yields g F b ps :=
  yields_seq_of_nil fun _ => .rfl

@[simp] lemma yields_ahead_seq : Yields g F (.seq (.ahead a) b) ps ↔ Yields g F b ps :=
  yields_seq_of_nil fun _ => .rfl

@[simp] lemma yields_notAhead_seq : Yields g F (.seq (.notAhead a) b) ps ↔ Yields g F b ps :=
  yields_seq_of_nil fun _ => .rfl

@[simp] lemma yields_seq_text {w : List Char} :
    Yields g F (.seq a (.text w)) ps ↔ Yields g F a ps := by
  simp [yields_seq]

@[simp] lemma yields_seq_seq :
    Yields g F (.seq (.seq a b) d) ps ↔ Yields g F (.seq a (.seq b d)) ps := by
  simp only [yields_seq]
  constructor
  · rintro ⟨qs, rs, rfl, ⟨us, vs, rfl, ha, hb⟩, hd⟩
    exact ⟨us, vs ++ rs, List.append_assoc .., ha, vs, rs, rfl, hb, hd⟩
  · rintro ⟨us, ws, rfl, ha, vs, rs, rfl, hb, hd⟩
    exact ⟨us ++ vs, rs, (List.append_assoc ..).symm, ⟨us, vs, rfl, ha, hb⟩, hd⟩

@[simp] lemma yields_choice_seq :
    Yields g F (.seq (.choice a b) d) ps ↔
      Yields g F (.seq a d) ps ∨ Yields g F (.seq b d) ps := by
  simp only [yields_seq, yields_choice]
  grind

@[simp] lemma yields_opt_seq :
    Yields g F (.seq (.opt a) b) ps ↔ Yields g F b ps ∨ Yields g F (.seq a b) ps := by
  simp only [yields_seq, yields_opt]
  grind

lemma yields_call_seq {r : R} (loud : g.kind r ≠ .silent) :
    Yields g F (.seq (.call r) b) ps ↔ ∃ p qs, ps = p :: qs ∧ F r p ∧ Yields g F b qs := by
  simp only [yields_seq, yields_call loud]
  constructor
  · rintro ⟨qs, rs, rfl, ⟨p, rfl, h⟩, hb⟩
    exact ⟨p, rs, rfl, h, hb⟩
  · rintro ⟨p, qs, rfl, h, hb⟩
    exact ⟨[p], qs, rfl, ⟨p, rfl, h⟩, hb⟩

/-- A repetition of what leaves nothing leaves nothing. -/
lemma yields_star_of_nil (h : ∀ qs, Yields g F a qs ↔ qs = []) :
    Yields g F (.star a) ps ↔ ps = [] := by
  simp only [yields_star, h]
  constructor
  · rintro ⟨pss, rfl, each⟩
    exact List.flatten_eq_nil_iff.2 each
  · rintro rfl
    exact ⟨[], rfl, by simp⟩

@[simp] lemma yields_char_seq {p : Char → Bool} :
    Yields g F (.seq (.char p) b) ps ↔ Yields g F b ps :=
  yields_seq_of_nil fun _ => .rfl

@[simp] lemma yields_star_char {p : Char → Bool} : Yields g F (.star (.char p)) ps ↔ ps = [] :=
  yields_star_of_nil fun _ => .rfl

@[simp] lemma yields_star_char_seq {p : Char → Bool} :
    Yields g F (.seq (.star (.char p)) b) ps ↔ Yields g F b ps :=
  yields_seq_of_nil fun _ => yields_star_char

/-- A repetition of what leaves one value each time leaves any number of such values. -/
lemma yields_star_of_single {Q : α → Prop} (h : ∀ qs, Yields g F a qs → ∃ p, qs = [p] ∧ Q p)
    (hs : Yields g F (.star a) ps) : ∀ p ∈ ps, Q p := by
  obtain ⟨pss, rfl, each⟩ := hs
  intro p hp
  obtain ⟨qs, hqs, hp⟩ := List.mem_flatten.1 hp
  obtain ⟨p', rfl, hQ⟩ := h qs (each qs hqs)
  rwa [List.mem_singleton.1 hp]

/-- Values may be replaced by others that stand for the same rules. -/
lemma Yields.map {G : R → β → Prop} {f : α → β} {e : Expr R} (h : Yields g F e ps)
    (fit : ∀ r, ∀ p ∈ ps, F r p → G r (f p)) : Yields g G e (ps.map f) := by
  induction e generalizing ps with
  | seq a b iha ihb =>
    obtain ⟨qs, rs, rfl, ha, hb⟩ := h
    refine ⟨qs.map f, rs.map f, List.map_append, iha ha fun r p hp => ?_, ihb hb fun r p hp => ?_⟩
    · exact fit r p (List.mem_append_left _ hp)
    · exact fit r p (List.mem_append_right _ hp)
  | choice a b iha ihb =>
    rcases h with h | h
    · exact .inl (iha h fit)
    · exact .inr (ihb h fit)
  | opt a ih =>
    rcases h with rfl | h
    · exact .inl rfl
    · exact .inr (ih h fit)
  | star a ih =>
    obtain ⟨pss, rfl, each⟩ := h
    refine ⟨pss.map (List.map f), by simp, fun qs hqs => ?_⟩
    obtain ⟨rs, hrs, rfl⟩ := List.mem_map.1 hqs
    exact ih (each rs hrs) fun r p hp => fit r p (List.mem_flatten_of_mem hrs hp)
  | call r =>
    rcases h with silent | ⟨p, rfl, h⟩
    · exact .inl silent
    · exact .inr ⟨f p, rfl, fit r p (List.mem_singleton_self p) h⟩
  | gap => trivial
  | _ => simp_all [Yields]

/-- An expression calls only rules of a class, and skips no gap of its own. -/
def Expr.callsOnly (ok : R → Bool) : Expr R → Bool
  | .seq a b | .choice a b => a.callsOnly ok && b.callsOnly ok
  | .opt a | .star a => a.callsOnly ok
  | .call r => ok r
  | .gap => false
  | _ => true

/-- What an expression leaves stands for rules that it calls. -/
lemma Yields.exists_rule {ok : R → Bool} {e : Expr R} (loud : ∀ r, ok r = true → g.kind r ≠ .silent)
    (only : e.callsOnly ok = true) (h : Yields g F e ps) : ∀ p ∈ ps, ∃ r, ok r = true ∧ F r p := by
  induction e generalizing ps with
  | seq a b iha ihb =>
    obtain ⟨ha, hb⟩ := Bool.and_eq_true_iff.1 only
    obtain ⟨qs, rs, rfl, hqs, hrs⟩ := h
    exact List.forall_mem_append.2 ⟨iha ha hqs, ihb hb hrs⟩
  | choice a b iha ihb =>
    obtain ⟨ha, hb⟩ := Bool.and_eq_true_iff.1 only
    rcases h with h | h
    · exact iha ha h
    · exact ihb hb h
  | opt a ih =>
    rcases h with rfl | h
    · simp
    · exact ih only h
  | star a ih =>
    obtain ⟨pss, rfl, each⟩ := h
    intro p hp
    obtain ⟨qs, hqs, hp⟩ := List.mem_flatten.1 hp
    exact ih only (each qs hqs) p hp
  | call r =>
    rcases h with silent | ⟨p, rfl, h⟩
    · exact absurd silent (loud r only)
    · exact List.forall_mem_singleton.2 ⟨r, only, h⟩
  | gap => cases only
  | _ =>
    obtain rfl : ps = [] := h
    simp

end Yields

section Spells

variable {a b : Expr R} {cs : List Char}

@[simp] lemma spells_empty : Spells (.empty : Expr R) cs ↔ cs = [] := .rfl

@[simp] lemma spells_text {w : List Char} : Spells (.text w : Expr R) cs ↔ cs = w := .rfl

@[simp] lemma spells_char {p : Char → Bool} :
    Spells (.char p : Expr R) cs ↔ ∃ x, cs = [x] ∧ p x = true := .rfl

@[simp] lemma spells_notAhead : Spells (.notAhead a) cs ↔ cs = [] := .rfl

@[simp] lemma spells_choice : Spells (.choice a b) cs ↔ Spells a cs ∨ Spells b cs := .rfl

@[simp] lemma spells_opt : Spells (.opt a) cs ↔ cs = [] ∨ Spells a cs := .rfl

@[simp] lemma spells_seq :
    Spells (.seq a b) cs ↔ ∃ xs ys, cs = xs ++ ys ∧ Spells a xs ∧ Spells b ys := .rfl

/-- A repetition of single characters is made of such characters. -/
lemma forall_of_spells_star {Q : Char → Prop} (one : ∀ xs, Spells a xs → ∃ x, xs = [x] ∧ Q x)
    (h : Spells (.star a) cs) : ∀ x ∈ cs, Q x := by
  obtain ⟨css, rfl, each⟩ := h
  intro x hx
  obtain ⟨xs, hxs, hx⟩ := List.mem_flatten.1 hx
  obtain ⟨y, rfl, hQ⟩ := one xs (each xs hxs)
  rwa [List.mem_singleton.1 hx]

lemma forall_of_spells_star_char {p : Char → Bool} (h : Spells (.star (.char p) : Expr R) cs) :
    ∀ x ∈ cs, p x = true :=
  forall_of_spells_star (fun _ => spells_char.1) h

lemma spells_oneOf {es : List (Expr R)} :
    Spells (.oneOf (a :: es)) cs ↔ ∃ e ∈ a :: es, Spells e cs := by
  induction es generalizing a with
  | nil => simp [Expr.oneOf]
  | cons d ds ih =>
    rw [Expr.oneOf, spells_choice, ih]
    · simp
    · exact List.cons_ne_nil d ds

end Spells

/-- The expression that a task is a part of. -/
def Task.expr : Task R → Expr R
  | once e => e
  | again e => .star e

/-- The trees that a match leaves where rules leave trees are yielded by its expression. -/
lemma Reads.yields {m : Mode} {k : Task R} {c : Cursor} {q : Match R} (builds : m.builds = true)
    (h : Reads g m k c (some q)) : Yields g (fun r t => t.rule = r) k.expr q.trees := by
  generalize e : some q = o at h
  induction h generalizing q
  case gap => trivial
  case seq ih₁ _ ih₃ => cases e; exact ⟨_, _, rfl, ih₁ builds rfl, ih₃ builds rfl⟩
  case choiceFirst ih => exact .inl (ih builds e)
  case choiceSecond ih₂ => exact .inr (ih₂ builds e)
  case optSome ih => exact .inr (ih builds e)
  case starSome ih₁ ih₂ =>
    cases e
    obtain ⟨pss, flat, each⟩ := ih₂ builds rfl
    refine ⟨_ :: pss, by rw [List.flatten_cons, ← flat], ?_⟩
    exact List.forall_mem_cons.2 ⟨ih₁ builds rfl, each⟩
  case againSome ih₂ ih₃ =>
    cases e
    obtain ⟨pss, flat, each⟩ := ih₃ builds rfl
    refine ⟨_ :: pss, by rw [List.flatten_cons, ← flat], ?_⟩
    exact List.forall_mem_cons.2 ⟨ih₂ builds rfl, each⟩
  case silent silent _ _ => exact .inl silent
  case call m r c q loud _ _ =>
    cases e
    have around : (m.around (g.kind r)).builds = true := by
      cases g.kind r <;> simp_all [Mode.around, Mode.builds]
    exact .inr ⟨_, if_pos around, rfl⟩
  case optNone => cases e; exact .inl rfl
  case starNone => cases e; exact ⟨[], rfl, by simp⟩
  case againNone => cases e; exact ⟨[], rfl, by simp⟩
  all_goals cases e
  all_goals trivial

/-- A match within a token leaves no trees, if all rules that it may call are tokens or silent. -/
lemma Reads.trees_eq_nil_of_atomic {p : R → Bool} {m : Mode} {k : Task R} {c : Cursor} {q : Match R}
    (closed : ∀ r, p r = true → (g.kind r = .atomic ∨ g.kind r = .silent) ∧
      (g.body r).callsOnly p = true)
    (atomic : m.atomicity = .atomic) (only : k.expr = .gap ∨ k.expr.callsOnly p = true)
    (h : Reads g m k c (some q)) : q.trees = [] := by
  generalize e : some q = o at h
  induction h generalizing q
  case gap normal _ _ =>
    rw [atomic] at normal
    cases normal
  case seq ih₁ _ ih₃ =>
    cases e
    obtain ⟨ha, hb⟩ := Bool.and_eq_true_iff.1 (only.resolve_left nofun)
    simp [ih₁ atomic (.inr ha) rfl, ih₃ atomic (.inr hb) rfl]
  case choiceFirst ih =>
    obtain ⟨ha, -⟩ := Bool.and_eq_true_iff.1 (only.resolve_left nofun)
    exact ih atomic (.inr ha) e
  case choiceSecond ih₂ =>
    obtain ⟨-, hb⟩ := Bool.and_eq_true_iff.1 (only.resolve_left nofun)
    exact ih₂ atomic (.inr hb) e
  case optSome ih => exact ih atomic (.inr (only.resolve_left nofun)) e
  case starSome ih₁ ih₂ =>
    cases e
    have ha := only.resolve_left nofun
    simp [ih₁ atomic (.inr ha) rfl, ih₂ atomic (.inr ha) rfl]
  case againSome ih₂ ih₃ =>
    cases e
    have ha := only.resolve_left nofun
    simp [ih₂ atomic (.inr ha) rfl, ih₃ atomic (.inr ha) rfl]
  case silent r _ _ _ _ ih =>
    exact ih atomic (.inr (closed r (only.resolve_left nofun)).2) e
  -- In an atomic rule a call builds no tree, and what is inside stays atomic.
  case call m r _ _ loud _ ih =>
    cases e
    obtain ⟨kind, body⟩ := closed r (only.resolve_left nofun)
    have kind := kind.resolve_right loud
    have quiet : (m.around (g.kind r)).builds = false := by
      simp [kind, Mode.around, Mode.builds, atomic]
    rw [quiet, if_neg Bool.false_ne_true]
    exact ih (by simp [kind, Mode.within]) (.inr body) rfl
  all_goals cases e
  all_goals rfl

/-- The text of a match without gaps is spelled by its expression. -/
lemma Reads.spells {m : Mode} {k : Task R} {c : Cursor} {q : Match R}
    (tight : m.atomicity ≠ .normal) (h : Reads g m k c (some q)) :
    ∃ cs, c.Leads cs q.place ∧ Spells k.expr cs := by
  generalize e : some q = o at h
  induction h generalizing q
  case text skip => cases e; exact ⟨_, Cursor.leads_of_skip? skip, rfl⟩
  case char x _ hx => cases e; exact ⟨[x], ⟨rfl, rfl⟩, x, rfl, hx⟩
  case gap normal _ _ => exact absurd normal tight
  case seq h₂ _ ih₁ _ ih₃ =>
    cases e
    obtain ⟨xs, l₁, s₁⟩ := ih₁ tight rfl
    obtain ⟨ys, l₃, s₃⟩ := ih₃ tight rfl
    -- Inside of tokens a gap is empty.
    cases h₂ with
    | gap normal _ => exact absurd normal tight
    | tight _ => exact ⟨xs ++ ys, l₁.trans l₃, xs, ys, rfl, s₁, s₃⟩
  case choiceFirst ih =>
    obtain ⟨cs, l, s⟩ := ih tight e
    exact ⟨cs, l, .inl s⟩
  case choiceSecond ih₂ =>
    obtain ⟨cs, l, s⟩ := ih₂ tight e
    exact ⟨cs, l, .inr s⟩
  case optSome ih =>
    obtain ⟨cs, l, s⟩ := ih tight e
    exact ⟨cs, l, .inr s⟩
  case starSome ih₁ ih₂ =>
    cases e
    obtain ⟨xs, l₁, s₁⟩ := ih₁ tight rfl
    obtain ⟨ys, l₂, css, rfl, each⟩ := ih₂ tight rfl
    exact ⟨_, l₁.trans l₂, xs :: css, rfl, List.forall_mem_cons.2 ⟨s₁, each⟩⟩
  case againSome h₁ _ _ _ ih₂ ih₃ =>
    cases e
    obtain ⟨xs, l₂, s₂⟩ := ih₂ tight rfl
    obtain ⟨ys, l₃, css, rfl, each⟩ := ih₃ tight rfl
    cases h₁ with
    | gap normal _ => exact absurd normal tight
    | tight _ => exact ⟨_, l₂.trans l₃, xs :: css, rfl, List.forall_mem_cons.2 ⟨s₂, each⟩⟩
  case silent h _ =>
    obtain ⟨cs, l⟩ := (e ▸ h).leads
    exact ⟨cs, l, trivial⟩
  case call h _ =>
    cases e
    obtain ⟨cs, l⟩ := h.leads
    exact ⟨cs, l, trivial⟩
  case starNone => cases e; exact ⟨[], .refl _, [], rfl, by simp⟩
  case againNone => cases e; exact ⟨[], .refl _, [], rfl, by simp⟩
  case optNone => cases e; exact ⟨[], .refl _, .inl rfl⟩
  all_goals cases e
  all_goals exact ⟨[], .refl _, rfl⟩

namespace Tree.IsRead

variable {source : List Char} {t : Tree R}

/-- The trees below a tree are yielded by what its rule stands for. -/
lemma yields (h : t.IsRead g source) (kind : g.kind t.rule = .normal ∨ g.kind t.rule = .compound) :
    Yields g (fun r u => u.rule = r) (g.body t.rule) t.children := by
  obtain ⟨_, _, m, q, builds, reads, _, below⟩ := h
  rw [below]
  refine reads.yields ?_
  rcases kind with kind | kind <;> simpa [kind, Mode.around, Mode.within] using builds

/-- The text of a token is spelled by what its rule stands for. -/
lemma spells (h : t.IsRead g source) (kind : g.kind t.rule = .atomic) :
    Spells (g.body t.rule) t.text := by
  obtain ⟨_, _, m, q, _, reads, text, _⟩ := h
  obtain ⟨cs, l, s⟩ := reads.spells (by simp [kind, Mode.within])
  rwa [text, l.upTo]

end Tree.IsRead

end ScriptTyping.Peg
