import Mathlib
import ScriptTyping.Listing.Box

/-!
# Texts of one line

A text without a line feed is one line, and the lines of a text that is put together of lines are
those lines again.
-/

namespace ScriptTyping

/-- A text that is one line. -/
def OneLine (s : String) : Prop :=
  '\n' ∉ s.toList

instance (s : String) : Decidable (OneLine s) :=
  inferInstanceAs (Decidable ('\n' ∉ s.toList))

namespace OneLine

variable {s t : String} {cs : List Char}

@[simp] lemma append_iff : OneLine (s ++ t) ↔ OneLine s ∧ OneLine t := by
  simp [OneLine, not_or]

@[simp] lemma ofList_iff : OneLine (String.ofList cs) ↔ '\n' ∉ cs := by
  simp [OneLine]

/-- A text that is written out is one line if it is written in one. -/
lemma literal (h : '\n' ∉ cs) : OneLine (String.ofList cs) :=
  ofList_iff.2 h

lemma append (hs : OneLine s) (ht : OneLine t) : OneLine (s ++ t) :=
  append_iff.2 ⟨hs, ht⟩

/-- A line between two texts that are written out in one line each. -/
lemma framed {as bs : List Char} (ha : '\n' ∉ as) (h : OneLine s) (hb : '\n' ∉ bs) :
    OneLine (String.ofList as ++ s ++ String.ofList bs) :=
  (append (literal ha) h).append (literal hb)

/-- A number is told in one line. -/
@[simp] lemma toString_nat (n : Nat) : OneLine (toString n) := by
  intro mem
  rw [show toString n = String.ofList (Nat.toDigits 10 n) from rfl, String.toList_ofList] at mem
  have digit := Nat.isDigit_of_mem_toDigits (by decide) (by decide) mem
  cases digit

lemma intercalate {sep : String} (hsep : OneLine sep) :
    ∀ {names : List String}, (∀ name ∈ names, OneLine name) → OneLine (sep.intercalate names)
  | [], _ => by simp [OneLine]
  | [a], h => by simpa using h a
  | a :: b :: names, h => by
    have rest : OneLine (sep.intercalate (b :: names)) :=
      intercalate hsep fun name mem => h name (.tail _ mem)
    rw [String.intercalate_cons_cons]
    exact (append (h a (.head _)) hsep).append rest

end OneLine

section Pieces

variable {α : Type*} [BEq α] [LawfulBEq α] {a x : α} {l xs ys : List α} {ls : List (List α)}

/-- What stands in a piece of a list stands in the list, and is not what parts the pieces. -/
lemma mem_of_mem_splitOn (h : l ∈ xs.splitOn a) (hx : x ∈ l) : x ∈ xs ∧ x ≠ a := by
  induction xs generalizing l with
  | nil =>
    obtain rfl : l = [] := by simpa using h
    cases hx
  | cons y xs ih =>
    rw [List.splitOn_cons_eq_if_modifyHead] at h
    split at h
    · obtain rfl | h := List.mem_cons.1 h
      · cases hx
      · exact (ih h hx).imp_left (List.mem_cons_of_mem y)
    next other =>
      obtain ⟨k, ks, pieces⟩ := List.exists_cons_of_ne_nil (List.splitOn_ne_nil a xs)
      rw [pieces, List.modifyHead_cons] at h
      obtain rfl | h := List.mem_cons.1 h
      · obtain rfl | hx := List.mem_cons.1 hx
        · exact ⟨.head _, by simpa using other⟩
        · exact (ih (by simp [pieces]) hx).imp_left (List.mem_cons_of_mem y)
      · exact (ih (pieces ▸ List.mem_cons_of_mem k h) hx).imp_left (List.mem_cons_of_mem y)

lemma splitOn_append_cons (free : a ∉ xs) : (xs ++ a :: ys).splitOn a = xs :: ys.splitOn a := by
  change List.splitOnP (· == a) _ = _ :: List.splitOnP (· == a) ys
  refine List.splitOnP_append_cons_of_forall_mem (fun x hx => ?_) a (by simp) ys
  exact beq_false_of_ne fun e => free (e ▸ hx)

/-- The first piece of a list stands at its front, and each other one behind what parts the pieces. -/
lemma splitOn_spec (h : xs.splitOn a = l :: ls) : l <+: xs ∧ ∀ k ∈ ls, a :: k <:+: xs := by
  induction xs generalizing l ls with
  | nil =>
    cases h
    exact ⟨List.nil_prefix, fun k hk => by cases hk⟩
  | cons x xs ih =>
    obtain ⟨k, ks, pieces⟩ := List.exists_cons_of_ne_nil (List.splitOn_ne_nil a xs)
    obtain ⟨front, others⟩ := ih pieces
    have later : ∀ k' ∈ ks, a :: k' <:+: x :: xs := fun k' hk' =>
      (others k' hk').trans (List.suffix_cons x xs).isInfix
    rw [List.splitOn_cons_eq_if_modifyHead, pieces] at h
    split at h
    next same =>
      cases h
      obtain rfl := eq_of_beq same
      have behind : x :: k <:+: x :: xs := ((List.prefix_cons_inj x).2 front).isInfix
      exact ⟨List.nil_prefix, List.forall_mem_cons.2 ⟨behind, later⟩⟩
    next =>
      cases h
      exact ⟨(List.prefix_cons_inj x).2 front, later⟩

lemma splitOn_intercalate_append_cons (ne : ls ≠ []) (free : ∀ l ∈ ls, a ∉ l) :
    ([a].intercalate ls ++ a :: ys).splitOn a = ls ++ ys.splitOn a := by
  induction ls with
  | nil => exact absurd rfl ne
  | cons l ls ih =>
    cases ls with
    | nil => simpa using splitOn_append_cons (free l (.head _))
    | cons k ls =>
      have rest := ih (List.cons_ne_nil k ls) fun l mem => free l (.tail _ mem)
      rw [List.intercalate_cons_cons, List.append_assoc, List.append_assoc, List.singleton_append,
        splitOn_append_cons (free l (.head _)), rest, List.cons_append, List.cons_append,
        List.cons_append]

end Pieces

namespace Listing

variable {s t : String} {ls : List Line}

@[simp] lemma linesOf_empty : linesOf "" = [[]] := rfl

/-- A line comes before the lines behind it. -/
lemma linesOf_append (h : OneLine s) : linesOf (s ++ "\n" ++ t) = s.toList :: linesOf t := by
  have chars : (s ++ "\n" ++ t).toList = s.toList ++ '\n' :: t.toList := by simp
  rw [linesOf, chars, splitOn_append_cons h, linesOf]

/-- The lines of two texts with a break between them. -/
lemma linesOf_append_break (s t : String) : linesOf (s ++ "\n" ++ t) = linesOf s ++ linesOf t := by
  have chars : (s ++ "\n" ++ t).toList = s.toList ++ '\n' :: t.toList := by simp
  rw [linesOf, chars, List.splitOn_append_cons_self, linesOf, linesOf]

/-- Lines come before the lines behind them. -/
lemma linesOf_intercalate_append (ne : ls ≠ []) (free : ∀ l ∈ ls, '\n' ∉ l) :
    linesOf (String.ofList (['\n'].intercalate ls) ++ "\n" ++ t) = ls ++ linesOf t := by
  have chars : (String.ofList (['\n'].intercalate ls) ++ "\n" ++ t).toList =
      ['\n'].intercalate ls ++ '\n' :: t.toList := by simp
  rw [linesOf, chars, splitOn_intercalate_append_cons ne free, linesOf]

/-- A line of a cell holds no line feed. -/
lemma free_of_mem_linesOf {l : Line} (h : l ∈ linesOf s) : '\n' ∉ l :=
  fun mem => (mem_of_mem_splitOn h mem).2 rfl

end Listing

end ScriptTyping
