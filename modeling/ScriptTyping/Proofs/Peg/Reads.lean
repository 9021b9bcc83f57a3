import Mathlib.Tactic.Lemma
import ScriptTyping.Peg.Run

/-!
# What a grammar reads

`Reads g m t c o` says that the evaluation of `t` at the place `c` comes to `o`: a match, or nothing
when it fails. It is what `run` computes, without the count of steps and without the record of
attempts. A match also tells where its last token ends, because the gap after a token may belong to
the match although no further token does.

* `Reads.of_run`: whatever `run` answers is read.
* `Reads.unique`: an evaluation comes to one thing only.
-/

namespace ScriptTyping.Peg

variable {R : Type}

/-- What is evaluated: an expression, or the further times of one that is repeated. -/
inductive Task (R : Type) where
  | once (e : Expr R)
  | again (e : Expr R)

/-- What was read: the place reached, the trees left, and the place where the last token ends, if
there is a token at all. -/
structure Match (R : Type) where
  place : Cursor
  trees : List (Tree R)
  stop : Option Nat

/-- The evaluation of a task at a place comes to a match, or to nothing. -/
inductive Reads (g : Grammar R) : Mode → Task R → Cursor → Option (Match R) → Prop where
  | empty {m c} :
    Reads g m (.once .empty) c (some ⟨c, [], none⟩)
  | text {m cs c d} :
    c.skip? cs = some d →
    Reads g m (.once (.text cs)) c (some ⟨d, [], if cs = [] then none else some d.index⟩)
  | textFail {m cs c} :
    c.skip? cs = none →
    Reads g m (.once (.text cs)) c none
  | char {m p i x xs} :
    p x = true →
    Reads g m (.once (.char p)) ⟨i, x :: xs⟩ (some ⟨⟨i + 1, xs⟩, [], some (i + 1)⟩)
  | charFail {m p i x xs} :
    p x = false →
    Reads g m (.once (.char p)) ⟨i, x :: xs⟩ none
  | charEnd {m p i} :
    Reads g m (.once (.char p)) ⟨i, []⟩ none
  | finish {m i} :
    Reads g m (.once .finish) ⟨i, []⟩ (some ⟨⟨i, []⟩, [], none⟩)
  | finishFail {m i x xs} :
    Reads g m (.once .finish) ⟨i, x :: xs⟩ none
  | gap {m c q} :
    m.atomicity = .normal →
    Reads g { m with atomicity := .atomic } (.once (.star g.blank)) c (some q) →
    Reads g m (.once .gap) c (some ⟨q.place, q.trees, none⟩)
  | tight {m c} :
    m.atomicity ≠ .normal →
    Reads g m (.once .gap) c (some ⟨c, [], none⟩)
  | seq {m a b c q₁ q₂ q₃} :
    Reads g m (.once a) c (some q₁) →
    Reads g m (.once .gap) q₁.place (some q₂) →
    Reads g m (.once b) q₂.place (some q₃) →
    Reads g m (.once (.seq a b)) c
      (some ⟨q₃.place, q₁.trees ++ q₃.trees, q₃.stop.or q₁.stop⟩)
  | seqFirst {m a b c} :
    Reads g m (.once a) c none →
    Reads g m (.once (.seq a b)) c none
  | seqSecond {m a b c q₁ q₂} :
    Reads g m (.once a) c (some q₁) →
    Reads g m (.once .gap) q₁.place (some q₂) →
    Reads g m (.once b) q₂.place none →
    Reads g m (.once (.seq a b)) c none
  | choiceFirst {m a b c q} :
    Reads g m (.once a) c (some q) →
    Reads g m (.once (.choice a b)) c (some q)
  | choiceSecond {m a b c o} :
    Reads g m (.once a) c none →
    Reads g m (.once b) c o →
    Reads g m (.once (.choice a b)) c o
  | optSome {m a c q} :
    Reads g m (.once a) c (some q) →
    Reads g m (.once (.opt a)) c (some q)
  | optNone {m a c} :
    Reads g m (.once a) c none →
    Reads g m (.once (.opt a)) c (some ⟨c, [], none⟩)
  | starSome {m a c q₁ q₂} :
    Reads g m (.once a) c (some q₁) →
    Reads g m (.again a) q₁.place (some q₂) →
    Reads g m (.once (.star a)) c
      (some ⟨q₂.place, q₁.trees ++ q₂.trees, q₂.stop.or q₁.stop⟩)
  | starNone {m a c} :
    Reads g m (.once a) c none →
    Reads g m (.once (.star a)) c (some ⟨c, [], none⟩)
  | againSome {m a c q₁ q₂ q₃} :
    Reads g m (.once .gap) c (some q₁) →
    Reads g m (.once a) q₁.place (some q₂) →
    Reads g m (.again a) q₂.place (some q₃) →
    Reads g m (.again a) c (some ⟨q₃.place, q₂.trees ++ q₃.trees, q₃.stop.or q₂.stop⟩)
  | againNone {m a c q} :
    Reads g m (.once .gap) c (some q) →
    Reads g m (.once a) q.place none →
    Reads g m (.again a) c (some ⟨c, [], none⟩)
  | ahead {m a c q} :
    Reads g m.wanting (.once a) c (some q) →
    Reads g m (.once (.ahead a)) c (some ⟨c, [], none⟩)
  | aheadFail {m a c} :
    Reads g m.wanting (.once a) c none →
    Reads g m (.once (.ahead a)) c none
  | notAhead {m a c} :
    Reads g m.refusing (.once a) c none →
    Reads g m (.once (.notAhead a)) c (some ⟨c, [], none⟩)
  | notAheadFail {m a c q} :
    Reads g m.refusing (.once a) c (some q) →
    Reads g m (.once (.notAhead a)) c none
  | silent {m r c o} :
    g.kind r = .silent →
    Reads g m (.once (g.body r)) c o →
    Reads g m (.once (.call r)) c o
  | call {m r c q} :
    g.kind r ≠ .silent →
    Reads g (m.within (g.kind r)) (.once (g.body r)) c (some q) →
    Reads g m (.once (.call r)) c
      (some ⟨q.place, if (m.around (g.kind r)).builds then
        [.node r c.index (c.upTo q.place) q.trees] else q.trees, q.stop⟩)
  | callFail {m r c} :
    g.kind r ≠ .silent →
    Reads g (m.within (g.kind r)) (.once (g.body r)) c none →
    Reads g m (.once (.call r)) c none

/-- What an outcome says of a task, apart from where the last token ends. -/
def Outcome.Told (g : Grammar R) (m : Mode) (t : Task R) (c : Cursor) : Outcome R → Prop
  | .matched d ts => ∃ stop, Reads g m t c (some ⟨d, ts, stop⟩)
  | .failed => Reads g m t c none
  | .exhausted => True

/-- What an outcome says of further times, when the trees before them are given. -/
def Outcome.ToldAgain (g : Grammar R) (m : Mode) (e : Expr R) (c : Cursor) (trees : List (Tree R)) :
    Outcome R → Prop
  | .matched d ts => ∃ us stop, ts = trees ++ us ∧ Reads g m (.again e) c (some ⟨d, us, stop⟩)
  | .failed => False
  | .exhausted => True

variable {g : Grammar R}

/-- A gap may always be empty. -/
lemma Reads.gap_some {m : Mode} {c : Cursor} {o : Option (Match R)}
    (h : Reads g m (.once .gap) c o) : ∃ q, o = some q := by
  cases h with
  | gap _ _ => exact ⟨_, rfl⟩
  | tight _ => exact ⟨_, rfl⟩

/-- A repetition may always be empty. -/
lemma Reads.star_some {m : Mode} {e : Expr R} {c : Cursor} {o : Option (Match R)}
    (h : Reads g m (.once (.star e)) c o) : ∃ q, o = some q := by
  cases h with
  | starSome _ _ => exact ⟨_, rfl⟩
  | starNone _ => exact ⟨_, rfl⟩

section Told

variable {n : Nat} (once : ∀ m e c a, (run g n m e c a).1.Told g m (.once e) c)
  (more : ∀ m e c ts a, (again g n m e c ts a).1.ToldAgain g m e c ts)

include once in
lemma told_gap (m : Mode) (c : Cursor) (a : Attempts R) :
    (run g (n + 1) m .gap c a).1.Told g m (.once .gap) c := by
  rw [run]
  cases h : m.atomicity with
  | normal =>
    have h₁ := once { m with atomicity := .atomic } (.star g.blank) c a
    generalize run g n { m with atomicity := .atomic } (.star g.blank) c a = o₁ at h₁ ⊢
    obtain ⟨⟨c₁, ts₁⟩ | _ | _, a₁⟩ := o₁
    · obtain ⟨stop, h₁⟩ := h₁
      exact ⟨none, .gap h h₁⟩
    · obtain ⟨_, e⟩ := Reads.star_some h₁
      cases e
    · trivial
  | compound => exact ⟨none, .tight (by simp [h])⟩
  | atomic => exact ⟨none, .tight (by simp [h])⟩

include once in
lemma told_seq (m : Mode) (e₁ e₂ : Expr R) (c : Cursor) (a : Attempts R) :
    (run g (n + 1) m (.seq e₁ e₂) c a).1.Told g m (.once (.seq e₁ e₂)) c := by
  rw [run]
  have h₁ := once m e₁ c a
  generalize run g n m e₁ c a = o₁ at h₁ ⊢
  obtain ⟨⟨c₁, ts₁⟩ | _ | _, a₁⟩ := o₁
  · obtain ⟨stop₁, h₁⟩ := h₁
    have h₂ := once m .gap c₁ a₁
    dsimp only
    generalize run g n m .gap c₁ a₁ = o₂ at h₂ ⊢
    obtain ⟨⟨c₂, ts₂⟩ | _ | _, a₂⟩ := o₂
    · obtain ⟨stop₂, h₂⟩ := h₂
      have h₃ := once m e₂ c₂ a₂
      dsimp only
      generalize run g n m e₂ c₂ a₂ = o₃ at h₃ ⊢
      obtain ⟨⟨c₃, ts₃⟩ | _ | _, a₃⟩ := o₃
      · obtain ⟨stop₃, h₃⟩ := h₃
        exact ⟨_, .seq h₁ h₂ h₃⟩
      · exact Reads.seqSecond h₁ h₂ h₃
      · trivial
    · obtain ⟨_, e⟩ := Reads.gap_some h₂
      cases e
    · trivial
  · exact Reads.seqFirst h₁
  · trivial

include once in
lemma told_choice (m : Mode) (e₁ e₂ : Expr R) (c : Cursor) (a : Attempts R) :
    (run g (n + 1) m (.choice e₁ e₂) c a).1.Told g m (.once (.choice e₁ e₂)) c := by
  rw [run]
  have h₁ := once m e₁ c a
  generalize run g n m e₁ c a = o₁ at h₁ ⊢
  obtain ⟨⟨c₁, ts₁⟩ | _ | _, a₁⟩ := o₁
  · obtain ⟨stop₁, h₁⟩ := h₁
    exact ⟨_, .choiceFirst h₁⟩
  · have h₂ := once m e₂ c a₁
    dsimp only
    generalize run g n m e₂ c a₁ = o₂ at h₂ ⊢
    obtain ⟨⟨c₂, ts₂⟩ | _ | _, a₂⟩ := o₂
    · obtain ⟨stop₂, h₂⟩ := h₂
      exact ⟨_, .choiceSecond h₁ h₂⟩
    · exact Reads.choiceSecond h₁ h₂
    · trivial
  · trivial

include once in
lemma told_opt (m : Mode) (e : Expr R) (c : Cursor) (a : Attempts R) :
    (run g (n + 1) m (.opt e) c a).1.Told g m (.once (.opt e)) c := by
  rw [run]
  have h₁ := once m e c a
  generalize run g n m e c a = o₁ at h₁ ⊢
  obtain ⟨⟨c₁, ts₁⟩ | _ | _, a₁⟩ := o₁
  · obtain ⟨stop₁, h₁⟩ := h₁
    exact ⟨_, .optSome h₁⟩
  · exact ⟨_, .optNone h₁⟩
  · trivial

include once more in
lemma told_star (m : Mode) (e : Expr R) (c : Cursor) (a : Attempts R) :
    (run g (n + 1) m (.star e) c a).1.Told g m (.once (.star e)) c := by
  rw [run]
  have h₁ := once m e c a
  generalize run g n m e c a = o₁ at h₁ ⊢
  obtain ⟨⟨c₁, ts₁⟩ | _ | _, a₁⟩ := o₁
  · obtain ⟨stop₁, h₁⟩ := h₁
    have h₂ := more m e c₁ ts₁ a₁
    dsimp only
    generalize again g n m e c₁ ts₁ a₁ = o₂ at h₂ ⊢
    obtain ⟨⟨c₂, ts₂⟩ | _ | _, a₂⟩ := o₂
    · obtain ⟨us, stop₂, rfl, h₂⟩ := h₂
      exact ⟨_, .starSome h₁ h₂⟩
    · exact h₂.elim
    · trivial
  · exact ⟨_, .starNone h₁⟩
  · trivial

include once more in
lemma told_again (m : Mode) (e : Expr R) (c : Cursor) (ts : List (Tree R)) (a : Attempts R) :
    (again g (n + 1) m e c ts a).1.ToldAgain g m e c ts := by
  rw [again]
  have h₁ := once m .gap c a
  generalize run g n m .gap c a = o₁ at h₁ ⊢
  obtain ⟨⟨c₁, ts₁⟩ | _ | _, a₁⟩ := o₁
  · obtain ⟨stop₁, h₁⟩ := h₁
    have h₂ := once m e c₁ a₁
    dsimp only
    generalize run g n m e c₁ a₁ = o₂ at h₂ ⊢
    obtain ⟨⟨c₂, ts₂⟩ | _ | _, a₂⟩ := o₂
    · obtain ⟨stop₂, h₂⟩ := h₂
      have h₃ := more m e c₂ (ts ++ ts₂) a₂
      dsimp only
      generalize again g n m e c₂ (ts ++ ts₂) a₂ = o₃ at h₃ ⊢
      obtain ⟨⟨c₃, ts₃⟩ | _ | _, a₃⟩ := o₃
      · obtain ⟨us, stop₃, rfl, h₃⟩ := h₃
        exact ⟨ts₂ ++ us, _, by simp, .againSome h₁ h₂ h₃⟩
      · exact h₃.elim
      · trivial
    · exact ⟨[], none, by simp, .againNone h₁ h₂⟩
    · trivial
  · obtain ⟨_, e⟩ := Reads.gap_some h₁
    cases e
  · trivial

include once in
lemma told_ahead (m : Mode) (e : Expr R) (c : Cursor) (a : Attempts R) :
    (run g (n + 1) m (.ahead e) c a).1.Told g m (.once (.ahead e)) c := by
  rw [run]
  have h₁ := once m.wanting e c a
  generalize run g n m.wanting e c a = o₁ at h₁ ⊢
  obtain ⟨⟨c₁, ts₁⟩ | _ | _, a₁⟩ := o₁
  · obtain ⟨stop₁, h₁⟩ := h₁
    exact ⟨_, .ahead h₁⟩
  · exact Reads.aheadFail h₁
  · trivial

include once in
lemma told_notAhead (m : Mode) (e : Expr R) (c : Cursor) (a : Attempts R) :
    (run g (n + 1) m (.notAhead e) c a).1.Told g m (.once (.notAhead e)) c := by
  rw [run]
  have h₁ := once m.refusing e c a
  generalize run g n m.refusing e c a = o₁ at h₁ ⊢
  obtain ⟨⟨c₁, ts₁⟩ | _ | _, a₁⟩ := o₁
  · obtain ⟨stop₁, h₁⟩ := h₁
    exact Reads.notAheadFail h₁
  · exact ⟨_, .notAhead h₁⟩
  · trivial

include once in
lemma told_call (m : Mode) (r : R) (c : Cursor) (a : Attempts R) :
    (run g (n + 1) m (.call r) c a).1.Told g m (.once (.call r)) c := by
  rw [run]
  by_cases silent : g.kind r = .silent
  · have h₁ := once m (g.body r) c a
    simp only [silent]
    generalize run g n m (g.body r) c a = o₁ at h₁ ⊢
    obtain ⟨⟨c₁, ts₁⟩ | _ | _, a₁⟩ := o₁
    · obtain ⟨stop₁, h₁⟩ := h₁
      exact ⟨_, .silent silent h₁⟩
    · exact Reads.silent silent h₁
    · trivial
  · have h₁ := once (m.within (g.kind r)) (g.body r) c a
    have loud := @Reads.call R g m r c
    have loudFail := @Reads.callFail R g m r c
    cases k : g.kind r
    case silent => exact absurd k silent
    all_goals
      simp only [k] at h₁ loud loudFail ⊢
      generalize run g n _ (g.body r) c a = o₁ at h₁ ⊢
      obtain ⟨⟨c₁, ts₁⟩ | _ | _, a₁⟩ := o₁
      · obtain ⟨stop₁, h₁⟩ := h₁
        exact ⟨_, loud (by simp) h₁⟩
      · exact loudFail (by simp) h₁
      · trivial

end Told

/-- What `run` and `again` answer at one count of steps is read. -/
lemma told_run (n : Nat) :
    (∀ m e c a, (run g n m e c a).1.Told g m (.once e) c) ∧
      ∀ m e c ts a, (again g n m e c ts a).1.ToldAgain g m e c ts := by
  -- On the depth, for one reading and for the rest of a repetition together.
  induction n with
  | zero =>
    refine ⟨fun m e c a => ?_, fun m e c ts a => ?_⟩
    · rw [run_zero]; trivial
    · rw [again_zero]; trivial
  | succ n ih =>
    obtain ⟨once, more⟩ := ih
    refine ⟨fun m e c a => ?_, told_again once more⟩
    cases e with
    | empty => exact ⟨none, .empty⟩
    | text cs =>
      rw [run]
      cases h : c.skip? cs with
      | none => exact Reads.textFail h
      | some d => exact ⟨_, .text h⟩
    | char p =>
      obtain ⟨i, xs⟩ := c
      rw [run]
      cases xs with
      | nil => exact Reads.charEnd
      | cons x xs =>
        by_cases h : p x = true
        · simp only [h, if_true]
          exact ⟨_, .char h⟩
        · simp only [h]
          exact Reads.charFail (by simpa using h)
    | finish =>
      obtain ⟨i, xs⟩ := c
      rw [run]
      cases xs with
      | nil => exact ⟨none, .finish⟩
      | cons x xs => exact Reads.finishFail
    | gap => exact told_gap once m c a
    | seq e₁ e₂ => exact told_seq once m e₁ e₂ c a
    | choice e₁ e₂ => exact told_choice once m e₁ e₂ c a
    | opt e => exact told_opt once m e c a
    | star e => exact told_star once more m e c a
    | ahead e => exact told_ahead once m e c a
    | notAhead e => exact told_notAhead once m e c a
    | call r => exact told_call once m r c a

/-- Whatever `run` answers is read. -/
theorem Reads.of_run {n : Nat} {m : Mode} {e : Expr R} {c : Cursor} {a : Attempts R} :
    (run g n m e c a).1.Told g m (.once e) c :=
  (told_run n).1 m e c a

/-- An evaluation comes to one thing only. -/
theorem Reads.unique {m : Mode} {k : Task R} {c : Cursor} {o o' : Option (Match R)}
    (h : Reads g m k c o) (h' : Reads g m k c o') : o = o' := by
  -- The first rule that applies is the only one: of any other a premise is refuted by the induction.
  induction h generalizing o'
  case text skip =>
    cases h' with
    | text skip' =>
      rw [skip] at skip'
      cases skip'
      rfl
    | textFail skip' =>
      rw [skip] at skip'
      cases skip'
  case textFail skip =>
    cases h' with
    | text skip' =>
      rw [skip] at skip'
      cases skip'
    | textFail => rfl
  case char hx =>
    cases h' with
    | char => rfl
    | charFail hx' =>
      rw [hx] at hx'
      cases hx'
  case charFail hx =>
    cases h' with
    | char hx' =>
      rw [hx] at hx'
      cases hx'
    | charFail => rfl
  case gap normal _ ih =>
    cases h' with
    | gap _ h =>
      cases ih h
      rfl
    | tight tight => exact absurd normal tight
  case tight tight =>
    cases h' with
    | gap normal _ => exact absurd normal tight
    | tight => rfl
  case seq ih₁ ih₂ ih₃ =>
    cases h' with
    | seq h₁ h₂ h₃ =>
      cases ih₁ h₁
      cases ih₂ h₂
      cases ih₃ h₃
      rfl
    | seqFirst h₁ => cases ih₁ h₁
    | seqSecond h₁ h₂ h₃ =>
      cases ih₁ h₁
      cases ih₂ h₂
      cases ih₃ h₃
  case seqFirst ih =>
    cases h' with
    | seq h₁ => cases ih h₁
    | seqFirst => rfl
    | seqSecond h₁ => cases ih h₁
  case seqSecond ih₁ ih₂ ih₃ =>
    cases h' with
    | seq h₁ h₂ h₃ =>
      cases ih₁ h₁
      cases ih₂ h₂
      cases ih₃ h₃
    | seqFirst h₁ => cases ih₁ h₁
    | seqSecond => rfl
  case choiceFirst ih =>
    cases h' with
    | choiceFirst h => exact ih h
    | choiceSecond h _ => cases ih h
  case choiceSecond ih₁ ih₂ =>
    cases h' with
    | choiceFirst h => cases ih₁ h
    | choiceSecond _ h => exact ih₂ h
  case optSome ih =>
    cases h' with
    | optSome h => exact ih h
    | optNone h => cases ih h
  case optNone ih =>
    cases h' with
    | optSome h => cases ih h
    | optNone => rfl
  case starSome ih₁ ih₂ =>
    cases h' with
    | starSome h₁ h₂ =>
      cases ih₁ h₁
      cases ih₂ h₂
      rfl
    | starNone h₁ => cases ih₁ h₁
  case starNone ih =>
    cases h' with
    | starSome h₁ => cases ih h₁
    | starNone => rfl
  case againSome ih₁ ih₂ ih₃ =>
    cases h' with
    | againSome h₁ h₂ h₃ =>
      cases ih₁ h₁
      cases ih₂ h₂
      cases ih₃ h₃
      rfl
    | againNone h₁ h₂ =>
      cases ih₁ h₁
      cases ih₂ h₂
  case againNone ih₁ ih₂ =>
    cases h' with
    | againSome h₁ h₂ =>
      cases ih₁ h₁
      cases ih₂ h₂
    | againNone => rfl
  case ahead ih =>
    cases h' with
    | ahead => rfl
    | aheadFail h => cases ih h
  case aheadFail ih =>
    cases h' with
    | ahead h => cases ih h
    | aheadFail => rfl
  case notAhead ih =>
    cases h' with
    | notAhead => rfl
    | notAheadFail h => cases ih h
  case notAheadFail ih =>
    cases h' with
    | notAhead h => cases ih h
    | notAheadFail => rfl
  case silent silent _ ih =>
    cases h' with
    | silent _ h => exact ih h
    | call loud => exact absurd silent loud
    | callFail loud => exact absurd silent loud
  case call loud _ ih =>
    cases h' with
    | silent silent => exact absurd silent loud
    | call _ h =>
      cases ih h
      rfl
    | callFail _ h => cases ih h
  case callFail loud _ ih =>
    cases h' with
    | silent silent => exact absurd silent loud
    | call _ h => cases ih h
    | callFail => rfl
  all_goals cases h'
  all_goals rfl

/-- Where gaps are not skipped, what was repeated does not match once more. -/
lemma Reads.no_more {m : Mode} {e : Expr R} {c : Cursor} {q : Match R}
    (tight : m.atomicity ≠ .normal) (h : Reads g m (.again e) c (some q)) :
    Reads g m (.once e) q.place none := by
  generalize k : Task.again e = t at h
  generalize o : some q = r at h
  induction h generalizing q
  case againSome ih =>
    cases o
    exact (ih tight k rfl :)
  case againNone gap none _ _ =>
    cases o
    cases k
    cases gap with
    | gap normal _ => exact absurd normal tight
    | tight _ => exact none
  all_goals cases k

/-- A gap is read to its end. -/
lemma Reads.gap_gap {m : Mode} {c : Cursor} {q : Match R} (h : Reads g m (.once .gap) c (some q)) :
    Reads g m (.once .gap) q.place (some ⟨q.place, [], none⟩) := by
  cases h with
  | gap normal h =>
    refine .gap normal (.starNone ?_)
    cases h with
    | starSome _ more => exact (more.no_more (by simp) :)
    | starNone none => exact none
  | tight tight => exact .tight tight

end ScriptTyping.Peg
