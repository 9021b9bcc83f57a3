import Mathlib.Data.Prod.Lex
import Mathlib.Tactic.Lemma
import ScriptTyping.Location

/-!
# Lines and columns

Line and column are told one character at a time (`advance_eq_foldl`): after a carriage return it makes no
difference whether the line feed ends the line alone or together with it. So each character leads on, to the
right or to a later line (`lineColumn_lt`), and a walk down to the line of a place and then along it passes as
many bytes as stand before the place (`passed?_advance`).
-/

namespace ScriptTyping.Location

/-- Line and column after one more character. -/
def step (p : Nat × Nat) (c : Char) : Nat × Nat :=
  if c = '\n' then (p.1 + 1, 1) else (p.1, p.2 + 1)

@[simp] lemma step_newline (p : Nat × Nat) : step p '\n' = (p.1 + 1, 1) := rfl

lemma step_of_ne {c : Char} (other : c ≠ '\n') (p : Nat × Nat) : step p c = (p.1, p.2 + 1) :=
  if_neg other

/-- A carriage return takes a column, which the line feed after it takes back. -/
lemma advance_eq_foldl (line column : Nat) (cs : List Char) :
    advance line column cs = cs.foldl step (line, column) := by
  fun_induction advance line column cs with
  | case1 => rfl
  | case2 line column cs ih => exact ih
  | case3 line column cs ih => exact ih
  | case4 line column c cs pair feed ih =>
    rw [List.foldl_cons, step_of_ne feed]
    exact ih

/-- A text may be cut anywhere, inside a line break too. -/
lemma advance_append (line column : Nat) (p cs : List Char) :
    advance line column (p ++ cs) =
      advance (advance line column p).1 (advance line column p).2 cs := by
  simp only [advance_eq_foldl, List.foldl_append]

/-- Lines and columns are counted on from where they begin. -/
lemma advance_pos {line column : Nat} (hl : 1 ≤ line) (hc : 1 ≤ column) (cs : List Char) :
    1 ≤ (advance line column cs).1 ∧ 1 ≤ (advance line column cs).2 := by
  fun_induction advance line column cs with
  | case1 => exact ⟨hl, hc⟩
  | case2 _ _ _ ih | case3 _ _ _ ih => exact ih (by omega) (by omega)
  | case4 _ _ _ _ _ _ ih => exact ih hl (by omega)

section Order

/-- Line and column of a place. They are compared by lines first. -/
def lineColumn (l : Location) : Nat ×ₗ Nat :=
  toLex (l.line, l.column)

lemma lt_step (p : Nat × Nat) (c : Char) : toLex p < toLex (step p c) := by
  rw [Prod.Lex.toLex_lt_toLex]
  unfold step
  split
  · exact .inl (Nat.lt_succ_self p.1)
  · exact .inr ⟨rfl, Nat.lt_succ_self p.2⟩

lemma le_foldl (p : Nat × Nat) (cs : List Char) : toLex p ≤ toLex (cs.foldl step p) := by
  induction cs generalizing p with
  | nil => exact le_refl _
  | cons c cs ih => exact (lt_step p c).le.trans (ih (step p c))

lemma lineColumn_after (file : String) (cs : List Char) :
    (after file cs).lineColumn = toLex (cs.foldl step (1, 1)) := by
  rw [← advance_eq_foldl]
  rfl

/-- A place comes before those that more text leads up to. -/
lemma lineColumn_lt (file : String) (before : List Char) {between : List Char} (ne : between ≠ []) :
    (after file before).lineColumn < (after file (before ++ between)).lineColumn := by
  obtain ⟨c, cs, rfl⟩ := List.exists_cons_of_ne_nil ne
  rw [lineColumn_after, lineColumn_after, List.foldl_append]
  exact (lt_step _ c).trans_le (le_foldl _ cs)

/-- Of two places between characters of a text the one at the later offset comes later. -/
lemma lineColumn_lt_of_splitBytes? (file : String) {cs before after before' after' : List Char} {a b : Nat}
    (first : Text.splitBytes? cs a = some (before, after))
    (second : Text.splitBytes? cs b = some (before', after')) (lt : a < b) :
    (Location.after file before).lineColumn < (Location.after file before').lineColumn := by
  have offset := Text.byteLength_of_splitBytes? first
  have offset' := Text.byteLength_of_splitBytes? second
  have whole := (Text.append_of_splitBytes? first).trans (Text.append_of_splitBytes? second).symm
  rcases List.append_eq_append_iff.1 whole with ⟨between, rfl, -⟩ | ⟨extra, rfl, -⟩
  · refine lineColumn_lt file before ?_
    rintro rfl
    rw [List.append_nil] at offset'
    omega
  · rw [Text.byteLength_append] at offset
    omega

end Order

section Walk

/-- The number of bytes that a walk through a text passes which goes down by some lines, and then to the
right by some columns. There is no such walk where the lines or the columns are not there. -/
def passed? : Nat → Nat → List Char → Option Nat
  | 0, 0, _ => some 0
  | 0, right + 1, c :: cs =>
    if c = '\n' then none else (passed? 0 right cs).map (c.utf8Size + ·)
  | down + 1, right, c :: cs =>
    (passed? (if c = '\n' then down else down + 1) right cs).map (c.utf8Size + ·)
  | _, _, [] => none

@[simp] lemma passed?_here (cs : List Char) : passed? 0 0 cs = some 0 := by
  cases cs
  all_goals rfl

/-- A walk goes as far as a text leads up to. The columns count from where the walk begins if it stays on
its line. -/
lemma passed?_foldl (line column : Nat) {down right : Nat} {before : List Char} (after : List Char)
    (arrives : before.foldl step (line, column) =
      (line + down, (if down = 0 then column else 1) + right)) :
    passed? down right (before ++ after) = some (Text.byteLength before) := by
  induction before generalizing line column down right with
  | nil =>
    obtain ⟨lines, columns⟩ := Prod.mk.inj arrives
    obtain rfl : down = 0 := by omega
    obtain rfl : right = 0 := by simpa using columns
    exact passed?_here after
  | cons c cs ih =>
    have further := le_foldl (step (line, column) c) cs
    rw [List.foldl_cons] at arrives
    rw [arrives, Prod.Lex.toLex_le_toLex] at further
    -- The walk passes the first character, and the rest of it begins where that leads.
    by_cases feed : c = '\n'
    · subst feed
      rw [step_newline] at arrives further
      obtain ⟨down, rfl⟩ : ∃ d, down = d + 1 := ⟨down - 1, by omega⟩
      have rest : passed? down right (cs ++ after) = some (Text.byteLength cs) := by
        refine ih _ _ (arrives.trans ?_)
        rw [if_neg (Nat.succ_ne_zero down), ite_self]
        simp only [Nat.add_assoc, Nat.add_comm 1]
      simp [passed?, rest]
    · rw [step_of_ne feed] at arrives further
      cases down with
      | zero =>
        have pos : 0 < right := by simpa [Nat.succ_le_iff] using further
        obtain ⟨right, rfl⟩ := Nat.exists_eq_add_one.2 pos
        have rest : passed? 0 right (cs ++ after) = some (Text.byteLength cs) := by
          refine ih _ _ (arrives.trans ?_)
          simp only [if_true, Nat.add_assoc, Nat.add_comm 1]
        simp [passed?, feed, rest]
      | succ down =>
        have rest : passed? (down + 1) right (cs ++ after) = some (Text.byteLength cs) :=
          ih line (column + 1) arrives
        simp [passed?, feed, rest]

/-- A walk to the line and the column that a text leads up to passes the text. -/
lemma passed?_advance (before after : List Char) :
    passed? ((advance 1 1 before).1 - 1) ((advance 1 1 before).2 - 1) (before ++ after) =
      some (Text.byteLength before) := by
  obtain ⟨line, column⟩ := advance_pos (Nat.le_refl 1) (Nat.le_refl 1) before
  refine passed?_foldl 1 1 after ?_
  rw [← advance_eq_foldl, ite_self, Nat.add_sub_cancel' line, Nat.add_sub_cancel' column]

end Walk

end ScriptTyping.Location
