import ScriptTyping.Proofs.Peg.Extent

/-!
# Reading at a later place

What is read depends on the text that follows a place, and not on how much stands before it. A place
may be moved by any number of characters, and then the places of the match and of its trees move by as
many (`Reads.shift`).
-/

namespace ScriptTyping.Peg

variable {R : Type} {g : Grammar R}

/-- The place with `n` more characters before it. -/
def Cursor.shift (n : Nat) (c : Cursor) : Cursor :=
  { c with index := c.index + n }

/-- The tree with `n` more characters before it. -/
def Tree.shift (n : Nat) (t : Tree R) : Tree R :=
  t.fold fun r i cs ts => .node r (i + n) cs ts

/-- The match with `n` more characters before it. -/
def Match.shift (n : Nat) (q : Match R) : Match R :=
  { place := q.place.shift n, trees := q.trees.map (Tree.shift n), stop := q.stop.map (· + n) }

namespace Cursor

variable {n : Nat} {c d : Cursor}

@[simp] lemma shift_index : (c.shift n).index = c.index + n := rfl

@[simp] lemma shift_rest : (c.shift n).rest = c.rest := rfl

lemma skip?_shift {cs : List Char} : (c.shift n).skip? cs = (c.skip? cs).map (shift n) := by
  induction cs generalizing c with
  | nil => rfl
  | cons x xs ih =>
    obtain ⟨i, _ | ⟨y, ys⟩⟩ := c
    · rfl
    · have later : (⟨i + n + 1, ys⟩ : Cursor) = (⟨i + 1, ys⟩ : Cursor).shift n := by
        simp only [shift, Nat.add_right_comm]
      simp only [shift, skip?, later]
      split
      · exact ih (c := ⟨i + 1, ys⟩)
      · rfl

@[simp] lemma upTo_shift : (c.shift n).upTo (d.shift n) = c.upTo d := by
  rw [upTo, upTo, shift_index, shift_index, shift_rest, Nat.add_sub_add_right]

end Cursor

namespace Tree

@[simp] lemma shift_node (n : Nat) (r : R) (i : Nat) (cs : List Char) (ts : List (Tree R)) :
    (node r i cs ts).shift n = node r (i + n) cs (ts.map (shift n)) := by
  rw [shift, fold_node]
  rfl

lemma shift_eq (n : Nat) (t : Tree R) :
    t.shift n = node t.rule (t.start + n) t.text (t.children.map (shift n)) := by
  obtain ⟨r, i, cs, ts⟩ := t
  exact shift_node n r i cs ts

@[simp] lemma rule_shift (n : Nat) (t : Tree R) : (t.shift n).rule = t.rule := by
  rw [shift_eq]
  rfl

@[simp] lemma text_shift (n : Nat) (t : Tree R) : (t.shift n).text = t.text := by
  rw [shift_eq]
  rfl

@[simp] lemma start_shift (n : Nat) (t : Tree R) : (t.shift n).start = t.start + n := by
  rw [shift_eq]
  rfl

@[simp] lemma children_shift (n : Nat) (t : Tree R) :
    (t.shift n).children = t.children.map (shift n) := by
  rw [shift_eq]
  rfl

/-- What lies below a tree is moved with it. -/
lemma Under.shift {n : Nat} {t u : Tree R} (h : u.Under t) : (u.shift n).Under (t.shift n) := by
  induction h with
  | self => exact .self
  | inside child _ ih =>
    refine .inside ?_ ih
    rw [children_shift]
    exact List.mem_map_of_mem child

end Tree

namespace Match

variable {n : Nat} {q : Match R}

@[simp] lemma shift_place : (q.shift n).place = q.place.shift n := rfl

@[simp] lemma shift_trees : (q.shift n).trees = q.trees.map (Tree.shift n) := rfl

/-- A match that goes on with another moves as a whole. -/
lemma shift_append {d : Cursor} {ts us : List (Tree R)} {i j : Option Nat} :
    (⟨d, ts ++ us, j.or i⟩ : Match R).shift n =
      ⟨d.shift n, ts.map (Tree.shift n) ++ us.map (Tree.shift n),
        (j.map (· + n)).or (i.map (· + n))⟩ := by
  cases j
  all_goals simp [shift]

end Match

/-- What is read at a place is read at any later one where the same text follows. -/
theorem Reads.shift {m : Mode} {k : Task R} {c : Cursor} {o : Option (Match R)} (n : Nat)
    (h : Reads g m k c o) : Reads g m k (c.shift n) (o.map (Match.shift n)) := by
  -- No step asks for the place itself, so the same steps lead from the shifted one.
  induction h with
  | empty => exact .empty
  | @text m cs c d skip =>
    have skip : (c.shift n).skip? cs = some (d.shift n) := by rw [Cursor.skip?_shift, skip]; rfl
    have moved := Reads.text (g := g) (m := m) skip
    simp only [Option.map_some, Match.shift]
    split at moved
    all_goals simp_all
  | textFail skip =>
    refine .textFail ?_
    rw [Cursor.skip?_shift, skip]
    rfl
  | @char m p i x xs hx =>
    have moved : Reads g m (.once (.char p)) ⟨i + n, x :: xs⟩
        (some ⟨⟨i + n + 1, xs⟩, [], some (i + n + 1)⟩) := .char hx
    rwa [Nat.add_right_comm] at moved
  | charFail hx => exact .charFail hx
  | charEnd => exact .charEnd
  | finish => exact .finish
  | finishFail => exact .finishFail
  | gap normal _ ih => exact .gap normal ih
  | tight tight => exact .tight tight
  | seq _ _ _ ih₁ ih₂ ih₃ =>
    rw [Option.map_some, Match.shift_append]
    exact .seq ih₁ ih₂ ih₃
  | seqFirst _ ih => exact .seqFirst ih
  | seqSecond _ _ _ ih₁ ih₂ ih₃ => exact .seqSecond ih₁ ih₂ ih₃
  | choiceFirst _ ih => exact .choiceFirst ih
  | choiceSecond _ _ ih₁ ih₂ => exact .choiceSecond ih₁ ih₂
  | optSome _ ih => exact .optSome ih
  | optNone _ ih => exact .optNone ih
  | starSome _ _ ih₁ ih₂ =>
    rw [Option.map_some, Match.shift_append]
    exact .starSome ih₁ ih₂
  | starNone _ ih => exact .starNone ih
  | againSome _ _ _ ih₁ ih₂ ih₃ =>
    rw [Option.map_some, Match.shift_append]
    exact .againSome ih₁ ih₂ ih₃
  | againNone _ _ ih₁ ih₂ => exact .againNone ih₁ ih₂
  | ahead _ ih => exact .ahead ih
  | aheadFail _ ih => exact .aheadFail ih
  | notAhead _ ih => exact .notAhead ih
  | notAheadFail _ ih => exact .notAheadFail ih
  | silent silent _ ih => exact .silent silent ih
  | @call m r c q loud _ ih =>
    have moved := Reads.call loud ih
    simp only [Option.map_some, Match.shift] at moved ⊢
    cases builds : (m.around (g.kind r)).builds
    all_goals simpa only [builds, if_true, Bool.false_eq_true, if_false, List.map_cons, List.map_nil,
      Tree.shift_node, Cursor.upTo_shift, Cursor.shift_index] using moved
  | callFail loud _ ih => exact .callFail loud ih

end ScriptTyping.Peg
