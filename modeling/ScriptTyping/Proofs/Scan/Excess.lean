import ScriptTyping.Proofs.Scan.Bytes
import ScriptTyping.Proofs.Scan.Lexeme

/-!
# The first bracket too many

What the search for a bracket too many finds depends on what stands before it alone
(`excess?_cut`): the text up to the bracket has none, and whatever stands behind the bracket, it is
found at the same offset. With a lower limit a bracket is found no later (`excess?_lower`).
-/

namespace ScriptTyping.Scan

variable {limit lower depth : Nat} {last b : Char} {cs rest before after : List Char}

/-- **The bracket that is found is told by what stands before it.** -/
lemma excess?_cut (found : excess? limit last depth cs = some rest) :
    ∃ before b after, cs = before ++ b :: after ∧ rest = b :: after ∧ b ∈ openers ∧
      excess? limit last depth before = none ∧
      ∀ ext, excess? limit last depth (before ++ b :: ext) = some (b :: ext) := by
  induction size : cs.length using Nat.strongRecOn generalizing last depth cs with
  | ind n ih =>
  subst size
  cases cs with
  | nil => rw [excess?] at found; cases found
  | cons c cs =>
  by_cases opens : c ∈ openers
  · rw [excess?_opener opens] at found
    split at found
    next deep =>
      obtain rfl := Option.some.inj found
      exact ⟨[], c, cs, rfl, rfl, opens, by rw [excess?], fun ext => by
        rw [List.nil_append, excess?_opener opens, if_pos deep]⟩
    next deep =>
      obtain ⟨before, b, after, rfl, rfl, bracket, none, alike⟩ := ih _ (by simp) found rfl
      exact ⟨c :: before, b, after, rfl, rfl, bracket, by rw [excess?_opener opens, if_neg deep, none],
        fun ext => by rw [List.cons_append, excess?_opener opens, if_neg deep, alike]⟩
  · obtain ⟨front, behind, last', depth', rfl, steps⟩ := goesOn_of_notMem last depth cs opens
    rw [steps behind (.refl _)] at found
    obtain ⟨before, b, after, rfl, rfl, bracket, none, alike⟩ :=
      ih _ (by rw [List.length_cons, List.length_append]; omega) found rfl
    refine ⟨c :: (front ++ before), b, after, by simp, rfl, bracket, ?_, fun ext => ?_⟩
    · rw [steps before (.of_append _ _), none]
    · have alikeBehind : Follows (before ++ b :: ext) (before ++ b :: after) :=
        (Follows.cons b ext after).append before
      rw [List.cons_append, List.append_assoc, steps _ alikeBehind, alike]

/-- With a lower limit a bracket is found no later. -/
lemma excess?_lower (le : lower ≤ limit) (found : excess? limit last depth cs = some rest) :
    ∃ first, excess? lower last depth cs = some first ∧ rest <:+ first := by
  induction size : cs.length using Nat.strongRecOn generalizing last depth cs with
  | ind n ih =>
  subst size
  cases cs with
  | nil => rw [excess?] at found; cases found
  | cons c cs =>
  by_cases opens : c ∈ openers
  · rw [excess?_opener opens]
    split
    next deep =>
      obtain ⟨before, b, after, split, rfl, -⟩ := excess?_cut found
      exact ⟨_, rfl, before, split.symm⟩
    next deep =>
      rw [excess?_opener opens, if_neg (by omega)] at found
      exact ih _ (by simp) found rfl
  · obtain ⟨front, behind, last', depth', rfl, steps⟩ := goesOn_of_notMem last depth cs opens
    rw [steps behind (.refl _)] at found ⊢
    exact ih _ (by rw [List.length_cons, List.length_append]; omega) found rfl

section Offsets

/-- The offset that the loop over the bytes finds. -/
def excessOffsetBytes? (limit : Nat) (bs : List UInt8) : Option (Option Nat) :=
  (excessBytes? limit (byte ';') 0 bs).map (Option.map fun rest => bs.length - rest.length)

lemma exists_before (found : excess? limit last depth cs = some rest) :
    ∃ before, cs = before ++ rest := by
  obtain ⟨before, b, after, rfl, rfl, -⟩ := excess?_cut found
  exact ⟨before, rfl⟩

lemma excessOffset?_of_some (found : excess? limit ';' 0 (before ++ rest) = some rest) :
    excessOffset? limit (before ++ rest) = some (Text.byteLength before) := by
  rw [excessOffset?, beforeExcess?, found, Option.map_some, Option.map_some, List.length_append,
    Nat.add_sub_cancel, List.take_left]

lemma excessOffset?_of_none (free : excess? limit ';' 0 cs = none) : excessOffset? limit cs = none := by
  rw [excessOffset?, beforeExcess?, free, Option.map_none, Option.map_none]

/-- What stands before an offset that is found. -/
lemma exists_of_excessOffset? {j : Nat} (found : excessOffset? limit cs = some j) :
    ∃ before rest, cs = before ++ rest ∧ Text.byteLength before = j ∧
      excess? limit ';' 0 (before ++ rest) = some rest := by
  cases bracket : excess? limit ';' 0 cs with
  | none => rw [excessOffset?_of_none bracket] at found; cases found
  | some rest =>
    obtain ⟨before, rfl⟩ := exists_before bracket
    rw [excessOffset?_of_some bracket] at found
    exact ⟨before, rest, rfl, Option.some.inj found, bracket⟩

/-- The loop over the bytes never cuts inside a character, and finds the same. -/
lemma excessOffsetBytes?_bytes (limit : Nat) (cs : List Char) :
    excessOffsetBytes? limit (bytes cs) = some (excessOffset? limit cs) := by
  rw [excessOffsetBytes?, excessBytes?_bytes (tells_byte (by decide)), Option.map_some]
  cases found : excess? limit ';' 0 cs with
  | none => rw [excessOffset?_of_none found, Option.map_none, Option.map_none]
  | some rest =>
    obtain ⟨before, rfl⟩ := exists_before found
    rw [excessOffset?_of_some found, Option.map_some, Option.map_some, bytes_append,
      List.length_append, Nat.add_sub_cancel, length_bytes]

/-- **The first bracket too many.** The loop over the bytes never cuts inside a character. Where it finds a
bracket, it finds one no later with any lower limit; the bracket opens a level; the text before it has
none too many; and every text that goes on behind the bracket in its own way has it at the same
offset. -/
theorem excessOffset?_spec (limit : Nat) (cs : List Char) :
    excessOffsetBytes? limit (bytes cs) = some (excessOffset? limit cs) ∧
      ∀ j, excessOffset? limit cs = some j →
        (∀ lower ≤ limit, ∃ i ≤ j, excessOffset? lower cs = some i) ∧
          ∃ before b after, cs = before ++ b :: after ∧ Text.byteLength before = j ∧ b ∈ openers ∧
            excessOffset? limit before = none ∧
            ∀ ext, excessOffset? limit (before ++ b :: ext) = some j := by
  refine ⟨excessOffsetBytes?_bytes limit cs, fun j found => ?_⟩
  obtain ⟨before, rest, rfl, rfl, bracket⟩ := exists_of_excessOffset? found
  refine ⟨fun lower le => ?_, ?_⟩
  · obtain ⟨first, sooner, mid, rfl⟩ := excess?_lower le bracket
    obtain ⟨front, split⟩ := exists_before sooner
    obtain rfl : before = front ++ mid :=
      List.append_cancel_right (split.trans (List.append_assoc front mid rest).symm)
    rw [List.append_assoc] at sooner ⊢
    exact ⟨Text.byteLength front, by simp, excessOffset?_of_some sooner⟩
  · obtain ⟨front, b, after, split, rfl, opens, free, alike⟩ := excess?_cut bracket
    obtain rfl : before = front := List.append_cancel_right split
    exact ⟨before, b, after, rfl, rfl, opens, excessOffset?_of_none free, fun ext =>
      excessOffset?_of_some (alike ext)⟩

/-- With a lower limit the outer call is found before the inner one. -/
theorem excessOffset?_spec_calls :
    excessOffset? 1 "f(g(x))".toList = some 3 ∧
      ∃ i ≤ 3, excessOffset? 0 "f(g(x))".toList = some i := by
  have found : excessOffset? 1 "f(g(x))".toList = some 3 := by decide +kernel
  exact ⟨found, ((excessOffset?_spec 1 "f(g(x))".toList).2 3 found).1 0 (by decide)⟩

end Offsets

end ScriptTyping.Scan
