import ScriptTyping.Proofs.Peg.Extent

/-!
# Reading on

What is known of a place that follows tells what is read at the place itself: a text that leads to a
place is skipped (`Cursor.skip?_of_leads`), and one more match comes before those that a repetition has
there (`Reads.star_step`). What calls no rules leaves no trees (`Reads.trees_eq_nil`).
-/

namespace ScriptTyping.Peg

variable {R : Type} {g : Grammar R}

namespace Cursor

/-- A text that leads from a place to another one can be cut. -/
lemma Leads.split {c d : Cursor} {cs ds : List Char} (h : c.Leads (cs ++ ds) d) :
    ∃ e, c.Leads cs e ∧ e.Leads ds d := by
  obtain ⟨r, i⟩ := h
  refine ⟨⟨c.index + cs.length, ds ++ d.rest⟩, ⟨by rw [r, List.append_assoc], rfl⟩, rfl, ?_⟩
  rw [i, List.length_append, Nat.add_assoc]

/-- A text that leads to a place is skipped. -/
lemma skip?_of_leads {c d : Cursor} {cs : List Char} (h : c.Leads cs d) : c.skip? cs = some d := by
  induction cs generalizing c with
  | nil =>
    obtain ⟨i, r⟩ := c
    obtain ⟨j, s⟩ := d
    obtain ⟨rest, index⟩ := h
    cases rest
    cases index
    rfl
  | cons x xs ih =>
    obtain ⟨i, r⟩ := c
    obtain ⟨rest, index⟩ := h
    cases rest
    rw [skip?, if_pos rfl]
    refine ih ⟨rfl, ?_⟩
    simp only [List.length_cons] at index ⊢
    omega

/-- A text leads to one place only. -/
lemma Leads.unique {c d e : Cursor} {cs : List Char} (h : c.Leads cs d) (h' : c.Leads cs e) :
    d = e :=
  Option.some.inj ((skip?_of_leads h).symm.trans (skip?_of_leads h'))

/-- What is left of a text tells where the text before it leads. -/
lemma Leads.of_rest {c d : Cursor} {cs ds : List Char} (h : c.Leads ds d)
    (rest : c.rest = cs ++ d.rest) : c.Leads cs d := by
  obtain rfl : ds = cs := List.append_cancel_right (h.1.symm.trans rest)
  exact h

/-- A text is not skipped where another one of its length stands. -/
lemma skip?_eq_none {c : Cursor} {x y : Char} {xs ys : List Char} (rest : c.rest = y :: ys)
    (ne : x ≠ y) : c.skip? (x :: xs) = none := by
  obtain ⟨i, r⟩ := c
  cases rest
  rw [skip?, if_neg ne]

end Cursor

namespace Reads

variable {m : Mode} {e : Expr R} {c d : Cursor} {q : Match R}

/-- A character of a class is read. -/
lemma char_of_leads {p : Char → Bool} {x : Char} (hx : p x = true) (l : c.Leads [x] d) :
    Reads g m (.once (.char p)) c (some ⟨d, [], some d.index⟩) := by
  obtain ⟨i, r⟩ := c
  obtain ⟨j, s⟩ := d
  obtain ⟨rest, index⟩ := l
  cases rest
  obtain rfl : j = i + 1 := index
  exact .char hx

/-- A text is read. -/
lemma text_of_leads {cs : List Char} (l : c.Leads cs d) :
    ∃ stop, Reads g m (.once (.text cs)) c (some ⟨d, [], stop⟩) :=
  ⟨_, .text (Cursor.skip?_of_leads l)⟩

/-- Where no gaps are skipped, one more match may come before those of a repetition. -/
lemma star_step {q₁ q₂ : Match R} (tight : m.atomicity ≠ .normal)
    (first : Reads g m (.once e) c (some q₁))
    (more : Reads g m (.once (.star e)) q₁.place (some q₂)) :
    ∃ q, Reads g m (.once (.star e)) c (some q) ∧ q.place = q₂.place := by
  cases more with
  | starSome one others => exact ⟨_, .starSome first (.againSome (.tight tight) one others), rfl⟩
  | starNone none => exact ⟨_, .starSome first (.againNone (.tight tight) none), rfl⟩

/-- Of several expressions those that fail may be passed over. -/
lemma oneOf_append {es fs : List (Expr R)} {o : Option (Match R)}
    (before : ∀ a ∈ es, Reads g m (.once a) c none)
    (h : Reads g m (.once (.oneOf (e :: fs))) c o) :
    Reads g m (.once (.oneOf (es ++ e :: fs))) c o := by
  induction es with
  | nil => exact h
  | cons a es ih =>
    have others := ih fun b hb => before b (List.mem_cons_of_mem a hb)
    have first := before a List.mem_cons_self
    cases es
    all_goals exact .choiceSecond first others

/-- The first of several expressions is what they come to if it matches. -/
lemma oneOf_first {fs : List (Expr R)} (h : Reads g m (.once e) c (some q)) :
    Reads g m (.once (.oneOf (e :: fs))) c (some q) := by
  cases fs with
  | nil => exact h
  | cons _ _ => exact .choiceFirst h

/-- A repetition that goes on in a place where no gap begins may begin there. -/
lemma star_of_again (closed : ∃ q, Reads g m (.once .gap) c (some q) ∧ q.place = c)
    (more : Reads g m (.again e) c (some q)) :
    ∃ q', Reads g m (.once (.star e)) c (some q') ∧ q'.place = q.place ∧ q'.trees = q.trees := by
  obtain ⟨q₀, gap, here⟩ := closed
  cases more with
  | againSome gap' one others =>
    cases gap.unique gap'
    rw [here] at one
    exact ⟨_, .starSome one others, rfl, rfl⟩
  | againNone gap' none =>
    cases gap.unique gap'
    rw [here] at none
    exact ⟨_, .starNone none, rfl, rfl⟩

end Reads

namespace Expr

/-- Whether an expression calls rules only to look ahead. -/
def isBare : Expr R → Bool
  | .seq a b | .choice a b => a.isBare && b.isBare
  | .opt a | .star a => a.isBare
  | .gap | .call _ => false
  | _ => true

end Expr

/-- Whether a task calls rules only to look ahead. -/
def Task.isBare : Task R → Bool
  | once e | again e => e.isBare

/-- What calls rules only to look ahead leaves no trees. -/
lemma Reads.trees_eq_nil {m : Mode} {k : Task R} {c : Cursor} {q : Match R}
    (h : Reads g m k c (some q))
    (bare : k.isBare = true) : q.trees = [] := by
  generalize e : some q = o at h
  induction h generalizing q
  case seq ih₁ _ ih₃ =>
    cases e
    obtain ⟨a, b⟩ := Bool.and_eq_true_iff.1 bare
    rw [ih₁ a rfl, ih₃ b rfl, List.append_nil]
  case choiceFirst ih => exact ih (Bool.and_eq_true_iff.1 bare).1 e
  case choiceSecond ih => exact ih (Bool.and_eq_true_iff.1 bare).2 e
  case optSome ih => exact ih bare e
  case starSome ih₁ ih₂ =>
    cases e
    rw [ih₁ bare rfl, ih₂ bare rfl, List.append_nil]
  case againSome ih₂ ih₃ =>
    cases e
    rw [ih₂ bare rfl, ih₃ bare rfl, List.append_nil]
  case gap => cases bare
  case silent => cases bare
  case call => cases bare
  all_goals cases e
  all_goals rfl

end ScriptTyping.Peg
