import ScriptTyping.Proofs.Peg.Extent

/-!
# What stays on record

A run never takes back what it put on record: whatever it evaluates and wherever it goes back to, the
record after it comes from the one before it by recording rules at places of the source (`run_later`).
So what recording keeps, a run keeps: the furthest place never moves back and lies in the source, and
once it has moved on, a rule is named there (`Later.furthest_le`, `Later.isSound`).
-/

namespace ScriptTyping.Peg

variable {R : Type} {g : Grammar R}

namespace Attempts

variable {a b : Attempts R} {r : R} {place limit : Nat} {mark : Mark} {unwanted : Bool}

/-- Whether a rule is on record. -/
def IsNamed (a : Attempts R) : Prop :=
  a.expected ++ a.unexpected ≠ []

/-- Recording a rule changes nothing when one rule inside it says more, or when the record is about a
later place; otherwise the record is about this place, and names the rule. -/
lemma record_cases (a : Attempts R) (unwanted : Bool) (r : R) (place : Nat) (mark : Mark) :
    (a.record unwanted r place mark = a ∧ place ≤ a.furthest ∧
        (a.IsNamed ∨ place < a.furthest)) ∨
      (a.furthest ≤ place ∧ (a.record unwanted r place mark).furthest = place ∧
        (a.record unwanted r place mark).IsNamed) := by
  have names (b : Attempts R) : (b.push unwanted r).furthest = b.furthest ∧
      (b.push unwanted r).IsNamed := by
    unfold push IsNamed
    split <;> simp
  -- If the call left exactly one rule behind at its place, this stays the answer; else its own rule is
  -- written.
  by_cases inner : (a.mark place).expected + (a.mark place).unexpected =
      mark.expected + mark.unexpected + 1
  · have same : a.record unwanted r place mark = a := if_pos inner
    by_cases here : a.furthest = place
    · rw [Attempts.mark, if_pos here] at inner
      refine .inl ⟨same, Nat.le_of_eq here.symm, .inl fun empty => ?_⟩
      obtain ⟨expected, unexpected⟩ := List.append_eq_nil_iff.1 empty
      simp only [expected, unexpected, List.length_nil] at inner
      omega
    · rw [Attempts.mark, if_neg here] at inner
      simp only [] at inner
      omega
  · have written : a.record unwanted r place mark =
        if (a.rewind place mark).furthest = place then (a.rewind place mark).push unwanted r
        else a.rewind place mark := if_neg inner
    obtain before | here | behind := Nat.lt_trichotomy a.furthest place
    · have moved : (a.rewind place mark).furthest = place := by
        rw [rewind, if_neg (Nat.ne_of_lt before), if_pos before]
      rw [written, if_pos moved]
      exact .inr ⟨Nat.le_of_lt before, (names _).1.trans moved, (names _).2⟩
    · have kept : (a.rewind place mark).furthest = place := by rw [rewind, if_pos here, here]
      rw [written, if_pos kept]
      exact .inr ⟨Nat.le_of_eq here, (names _).1.trans kept, (names _).2⟩
    · have same : a.rewind place mark = a := by
        rw [rewind, if_neg (Nat.ne_of_gt behind), if_neg (Nat.not_lt_of_gt behind)]
      rw [written, same, if_neg (Nat.ne_of_gt behind)]
      exact .inl ⟨rfl, Nat.le_of_lt behind, .inr behind⟩

/-- The record goes on from another: since then rules were recorded at places up to a limit. -/
inductive Later (limit : Nat) (a : Attempts R) : Attempts R → Prop where
  | refl : Later limit a a
  | record {b : Attempts R} (unwanted : Bool) (r : R) {place : Nat} (mark : Mark) :
    Later limit a b →
    place ≤ limit →
    Later limit a (b.record unwanted r place mark)

/-- A record about a place up to a limit. Once it is about a later place than the first, it names a
rule. -/
structure IsSound (limit : Nat) (a : Attempts R) : Prop where
  le : a.furthest ≤ limit
  named : 0 < a.furthest → a.IsNamed

lemma isSound_none (limit : Nat) : IsSound limit (none : Attempts R) :=
  ⟨Nat.zero_le _, fun pos => absurd pos (Nat.lt_irrefl 0)⟩

namespace Later

lemma trans {c : Attempts R} (first : Later limit a b) (second : Later limit b c) :
    Later limit a c := by
  induction second with
  | refl => exact first
  | record unwanted r mark _ le ih => exact .record unwanted r mark ih le

/-- The furthest place never moves back. -/
lemma furthest_le (h : Later limit a b) : a.furthest ≤ b.furthest := by
  induction h with
  | refl => exact Nat.le_refl _
  | @record b unwanted r place mark _ _ ih =>
    obtain ⟨same, -⟩ | ⟨le, moved, -⟩ := record_cases b unwanted r place mark
    · rwa [same]
    · rw [moved]
      exact Nat.le_trans ih le

lemma isSound (h : Later limit a b) (sound : a.IsSound limit) : b.IsSound limit := by
  induction h with
  | refl => exact sound
  | @record b unwanted r place mark _ le ih =>
    obtain ⟨same, -⟩ | ⟨-, moved, named⟩ := record_cases b unwanted r place mark
    · rwa [same]
    · exact ⟨by rwa [moved], fun _ => named⟩

end Later

/-- After a rule was recorded, the furthest place is no earlier than the one where it began. -/
lemma le_furthest_record : place ≤ (a.record unwanted r place mark).furthest := by
  obtain ⟨same, le, -⟩ | ⟨-, moved, -⟩ := record_cases a unwanted r place mark
  · rwa [same]
  · exact Nat.le_of_eq moved.symm

/-- After a rule was recorded, some rule is named. -/
lemma IsSound.isNamed_record (sound : a.IsSound limit) : (a.record unwanted r place mark).IsNamed := by
  obtain ⟨same, -, named | later⟩ | ⟨-, -, named⟩ := record_cases a unwanted r place mark
  · rwa [same]
  · rw [same]
    exact sound.named (by omega)
  · exact named

end Attempts

open Attempts

/-- What an evaluation in a source leaves: a record that goes on from the one before, and, if it
matched, a place in the source. -/
def Keeps (source : List Char) (a : Attempts R) (o : Outcome R × Attempts R) : Prop :=
  Later source.length a o.2 ∧ ∀ d ts, o.1 = .matched d ts → d.Within source

lemma Keeps.after {source : List Char} {a b : Attempts R} {o : Outcome R × Attempts R}
    (before : Later source.length a b) (h : Keeps source b o) : Keeps source a o :=
  ⟨before.trans h.1, h.2⟩

section Kept

variable {n : Nat} {source : List Char}
  (once : ∀ m e c a, c.Within source → Keeps source a (run g n m e c a))
  (more : ∀ m e c ts a, c.Within source → Keeps source a (again g n m e c ts a))

include once in
lemma keeps_gap (m : Mode) (c : Cursor) (a : Attempts R) (w : c.Within source) :
    Keeps source a (run g (n + 1) m .gap c a) := by
  rw [run]
  split
  · exact once _ _ c a w
  · exact ⟨.refl, fun d ts matched => by cases matched; exact w⟩

include once in
lemma keeps_seq (m : Mode) (e₁ e₂ : Expr R) (c : Cursor) (a : Attempts R) (w : c.Within source) :
    Keeps source a (run g (n + 1) m (.seq e₁ e₂) c a) := by
  rw [run]
  have h₁ := once m e₁ c a w
  generalize run g n m e₁ c a = o₁ at h₁ ⊢
  obtain ⟨⟨c₁, ts₁⟩ | _ | _, a₁⟩ := o₁
  · have h₂ := (once m .gap c₁ a₁ (h₁.2 _ _ rfl)).after h₁.1
    dsimp only
    generalize run g n m .gap c₁ a₁ = o₂ at h₂ ⊢
    obtain ⟨⟨c₂, ts₂⟩ | _ | _, a₂⟩ := o₂
    · have h₃ := (once m e₂ c₂ a₂ (h₂.2 _ _ rfl)).after h₂.1
      dsimp only
      generalize run g n m e₂ c₂ a₂ = o₃ at h₃ ⊢
      obtain ⟨⟨c₃, ts₃⟩ | _ | _, a₃⟩ := o₃
      · exact ⟨h₃.1, fun d ts matched => by cases matched; exact h₃.2 _ _ rfl⟩
      · exact h₃
      · exact h₃
    · exact h₂
    · exact h₂
  · exact h₁
  · exact h₁

include once in
lemma keeps_choice (m : Mode) (e₁ e₂ : Expr R) (c : Cursor) (a : Attempts R)
    (w : c.Within source) : Keeps source a (run g (n + 1) m (.choice e₁ e₂) c a) := by
  rw [run]
  have h₁ := once m e₁ c a w
  generalize run g n m e₁ c a = o₁ at h₁ ⊢
  obtain ⟨⟨c₁, ts₁⟩ | _ | _, a₁⟩ := o₁
  · exact h₁
  · exact (once m e₂ c a₁ w).after h₁.1
  · exact h₁

include once in
lemma keeps_opt (m : Mode) (e : Expr R) (c : Cursor) (a : Attempts R) (w : c.Within source) :
    Keeps source a (run g (n + 1) m (.opt e) c a) := by
  rw [run]
  have h₁ := once m e c a w
  generalize run g n m e c a = o₁ at h₁ ⊢
  obtain ⟨⟨c₁, ts₁⟩ | _ | _, a₁⟩ := o₁
  · exact h₁
  · exact ⟨h₁.1, fun d ts matched => by cases matched; exact w⟩
  · exact h₁

include once more in
lemma keeps_star (m : Mode) (e : Expr R) (c : Cursor) (a : Attempts R) (w : c.Within source) :
    Keeps source a (run g (n + 1) m (.star e) c a) := by
  rw [run]
  have h₁ := once m e c a w
  generalize run g n m e c a = o₁ at h₁ ⊢
  obtain ⟨⟨c₁, ts₁⟩ | _ | _, a₁⟩ := o₁
  · exact (more m e c₁ ts₁ a₁ (h₁.2 _ _ rfl)).after h₁.1
  · exact ⟨h₁.1, fun d ts matched => by cases matched; exact w⟩
  · exact h₁

include once more in
lemma keeps_again (m : Mode) (e : Expr R) (c : Cursor) (ts : List (Tree R)) (a : Attempts R)
    (w : c.Within source) : Keeps source a (again g (n + 1) m e c ts a) := by
  rw [again]
  have h₁ := once m .gap c a w
  generalize run g n m .gap c a = o₁ at h₁ ⊢
  obtain ⟨⟨c₁, ts₁⟩ | _ | _, a₁⟩ := o₁
  · have h₂ := (once m e c₁ a₁ (h₁.2 _ _ rfl)).after h₁.1
    dsimp only
    generalize run g n m e c₁ a₁ = o₂ at h₂ ⊢
    obtain ⟨⟨c₂, ts₂⟩ | _ | _, a₂⟩ := o₂
    · exact (more m e c₂ _ a₂ (h₂.2 _ _ rfl)).after h₂.1
    · exact ⟨h₂.1, fun d ts matched => by cases matched; exact w⟩
    · exact h₂
  · exact h₁
  · exact h₁

include once in
lemma keeps_ahead (m : Mode) (e : Expr R) (c : Cursor) (a : Attempts R) (w : c.Within source) :
    Keeps source a (run g (n + 1) m (.ahead e) c a) := by
  rw [run]
  have h₁ := once m.wanting e c a w
  generalize run g n m.wanting e c a = o₁ at h₁ ⊢
  obtain ⟨⟨c₁, ts₁⟩ | _ | _, a₁⟩ := o₁
  · exact ⟨h₁.1, fun d ts matched => by cases matched; exact w⟩
  · exact h₁
  · exact h₁

include once in
lemma keeps_notAhead (m : Mode) (e : Expr R) (c : Cursor) (a : Attempts R) (w : c.Within source) :
    Keeps source a (run g (n + 1) m (.notAhead e) c a) := by
  rw [run]
  have h₁ := once m.refusing e c a w
  generalize run g n m.refusing e c a = o₁ at h₁ ⊢
  obtain ⟨⟨c₁, ts₁⟩ | _ | _, a₁⟩ := o₁
  · exact ⟨h₁.1, fun d ts matched => by cases matched⟩
  · exact ⟨h₁.1, fun d ts matched => by cases matched; exact w⟩
  · exact h₁

/-- Settling a rule records it or does nothing. -/
lemma later_settle {m : Mode} {r : R} {place limit : Nat} {mark : Mark} {matched : Bool}
    {a : Attempts R} (le : place ≤ limit) : Later limit a (settle m r place mark matched a) := by
  unfold settle
  split
  · exact .record _ r mark .refl le
  · exact .refl

/-- What a rule comes to that is no silent one. -/
lemma run_call {m : Mode} {r : R} {c : Cursor} {a : Attempts R} (loud : g.kind r ≠ .silent) :
    run g (n + 1) m (.call r) c a =
      match run g n (m.within (g.kind r)) (g.body r) c a with
      | (.matched d ts, a₁) =>
        (.matched d (if (m.around (g.kind r)).builds then [.node r c.index (c.upTo d) ts] else ts),
          settle (m.around (g.kind r)) r c.index (a.mark c.index) true a₁)
      | (.failed, a₁) => (.failed, settle (m.around (g.kind r)) r c.index (a.mark c.index) false a₁)
      | (.exhausted, a₁) => (.exhausted, a₁) := by
  rw [run]
  split
  · contradiction
  · generalize run g n (m.within (g.kind r)) (g.body r) c a = o₁
    obtain ⟨⟨c₁, ts₁⟩ | _ | _, a₁⟩ := o₁ <;> rfl

include once in
lemma keeps_call (m : Mode) (r : R) (c : Cursor) (a : Attempts R) (w : c.Within source) :
    Keeps source a (run g (n + 1) m (.call r) c a) := by
  by_cases silent : g.kind r = .silent
  · rw [run]
    simp only [silent]
    exact once m (g.body r) c a w
  · rw [run_call silent]
    have h₁ := once (m.within (g.kind r)) (g.body r) c a w
    generalize run g n (m.within (g.kind r)) (g.body r) c a = o₁ at h₁ ⊢
    obtain ⟨⟨c₁, ts₁⟩ | _ | _, a₁⟩ := o₁
    · exact ⟨h₁.1.trans (later_settle w.2), fun d ts matched => by cases matched; exact h₁.2 _ _ rfl⟩
    · exact ⟨h₁.1.trans (later_settle w.2), fun d ts matched => by cases matched⟩
    · exact h₁

end Kept

/-- What `run` and `again` leave at one count of steps. -/
lemma keeps_run (source : List Char) (n : Nat) :
    (∀ m e c a, c.Within source → Keeps source a (run g n m e c a)) ∧
      ∀ m e c ts a, c.Within source → Keeps source a (again g n m e c ts a) := by
  have stays {a : Attempts R} {o : Outcome R} (h : ∀ d ts, o = .matched d ts → d.Within source) :
      Keeps source a (o, a) := ⟨.refl, h⟩
  have fails {a : Attempts R} : Keeps source a (.failed, a) := stays fun d ts matched => by cases matched
  have exhausts {a : Attempts R} : Keeps source a (.exhausted, a) :=
    stays fun d ts matched => by cases matched
  -- On the depth: what reads a part of an expression has one less to go.
  induction n with
  | zero =>
    refine ⟨fun m e c a _ => ?_, fun m e c ts a _ => ?_⟩
    · rw [run_zero]
      exact exhausts
    · rw [again_zero]
      exact exhausts
  | succ n ih =>
    obtain ⟨once, more⟩ := ih
    refine ⟨fun m e c a w => ?_, keeps_again once more⟩
    cases e with
    | empty =>
      rw [run]
      exact stays fun d ts matched => by cases matched; exact w
    | text cs =>
      rw [run]
      cases h : c.skip? cs with
      | none => exact fails
      | some d => exact stays fun d ts matched => by cases matched; exact w.leads (Cursor.leads_of_skip? h)
    | char p =>
      rw [run]
      split
      next x xs here =>
        split
        · exact stays fun d ts matched => by
            cases matched
            exact w.leads (show c.Leads [x] ⟨c.index + 1, xs⟩ from ⟨here, rfl⟩)
        · exact fails
      · exact fails
    | finish =>
      rw [run]
      split
      · exact stays fun d ts matched => by cases matched; exact w
      · exact fails
    | gap => exact keeps_gap once m c a w
    | seq e₁ e₂ => exact keeps_seq once m e₁ e₂ c a w
    | choice e₁ e₂ => exact keeps_choice once m e₁ e₂ c a w
    | opt e => exact keeps_opt once m e c a w
    | star e => exact keeps_star once more m e c a w
    | ahead e => exact keeps_ahead once m e c a w
    | notAhead e => exact keeps_notAhead once m e c a w
    | call r => exact keeps_call once m r c a w

/-- **Nothing that is on record is ever taken back.** What an evaluation leaves on record goes on from what
was on record before it. -/
theorem run_later {source : List Char} {n : Nat} {m : Mode} {e : Expr R} {c : Cursor} {a : Attempts R}
    (w : c.Within source) : Later source.length a (run g n m e c a).2 :=
  ((keeps_run source n).1 m e c a w).1

section Failures

variable {n : Nat} {m : Mode} {c : Cursor} {a b : Attempts R}

/-- A rule that failed was settled as such. -/
lemma exists_of_call_failed {r : R} (loud : g.kind r ≠ .silent)
    (h : run g n m (.call r) c a = (.failed, b)) :
    ∃ k a₁, run g k (m.within (g.kind r)) (g.body r) c a = (.failed, a₁) ∧
      b = settle (m.around (g.kind r)) r c.index (a.mark c.index) false a₁ := by
  cases n with
  | zero => rw [run_zero] at h; cases h
  | succ n =>
    rw [run_call loud] at h
    cases inner : run g n (m.within (g.kind r)) (g.body r) c a with
    | mk o a₁ =>
      rw [inner] at h
      cases o with
      | failed =>
        cases h
        exact ⟨n, a₁, inner, rfl⟩
      | matched => cases h
      | exhausted => cases h

/-- Of two parts one after the other, the first failed, or it matched and the second failed behind
the gap. -/
lemma exists_of_seq_failed {e₁ e₂ : Expr R} (h : run g n m (.seq e₁ e₂) c a = (.failed, b)) :
    (∃ k, run g k m e₁ c a = (.failed, b)) ∨
      ∃ k c₁ ts₁ a₁ c₂ ts₂ a₂, run g k m e₁ c a = (.matched c₁ ts₁, a₁) ∧
        run g k m .gap c₁ a₁ = (.matched c₂ ts₂, a₂) ∧ run g k m e₂ c₂ a₂ = (.failed, b) := by
  cases n with
  | zero => rw [run_zero] at h; cases h
  | succ n =>
    rw [run] at h
    cases first : run g n m e₁ c a with
    | mk o₁ a₁ =>
      rw [first] at h
      cases o₁ with
      | failed => exact .inl ⟨n, first.trans h⟩
      | exhausted => cases h
      | matched c₁ ts₁ =>
        dsimp only at h
        cases gap : run g n m .gap c₁ a₁ with
        | mk o₂ a₂ =>
          rw [gap] at h
          cases o₂ with
          | failed =>
            -- A gap never fails, as it may be empty.
            have told := Reads.of_run (g := g) (n := n) (m := m) (e := .gap) (c := c₁) (a := a₁)
            rw [gap] at told
            obtain ⟨_, some⟩ := Reads.gap_some told
            cases some
          | exhausted => cases h
          | matched c₂ ts₂ =>
            dsimp only at h
            cases second : run g n m e₂ c₂ a₂ with
            | mk o₃ a₃ =>
              rw [second] at h
              cases o₃ with
              | failed => exact .inr ⟨n, c₁, ts₁, a₁, c₂, ts₂, a₂, first, gap, second.trans h⟩
              | matched => cases h
              | exhausted => cases h

/-- A repetition never fails. -/
lemma star_ne_failed {e : Expr R} : run g n m (.star e) c a ≠ (.failed, b) := by
  intro h
  have told := Reads.of_run (g := g) (n := n) (m := m) (e := .star e) (c := c) (a := a)
  rw [h] at told
  obtain ⟨_, some⟩ := Reads.star_some told
  cases some

lemma reads_of_run {e : Expr R} {d : Cursor} {ts : List (Tree R)}
    (h : run g n m e c a = (.matched d ts, b)) :
    ∃ q, Reads g m (.once e) c (some q) ∧ q.place = d := by
  have told := Reads.of_run (g := g) (n := n) (m := m) (e := e) (c := c) (a := a)
  rw [h] at told
  obtain ⟨stop, reads⟩ := told
  exact ⟨_, reads, rfl⟩

end Failures

end ScriptTyping.Peg
