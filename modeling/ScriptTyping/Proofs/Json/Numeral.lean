import Mathlib.Tactic.FieldSimp
import Mathlib.Tactic.IntervalCases
import Mathlib.Tactic.Ring
import ScriptTyping.Proofs.Json.Reader

/-!
# Numbers written and read

A number in JSON is read as the number that was written: a natural number as it is, and any other
magnitude as its shortest decimal, with or without an exponent. The digits of a decimal begin with
a zero only when they are all zero, so that what is written keeps to the grammar of JSON.
-/

namespace ScriptTyping
namespace Json
namespace Reader

/-- Nothing that would prolong a number. -/
def Ends (after : List Char) : Prop :=
  ∀ c ∈ after.head?, c = ',' ∨ c = '\n'

lemma Ends.not_isDigit {after : List Char} (h : Ends after) :
    ∀ c ∈ after.head?, c.isDigit = false := by
  intro c hc
  rcases h c hc with rfl | rfl
  all_goals rfl

lemma digits?_append {ds after : List Char} (ne : ds ≠ []) (digits : ∀ c ∈ ds, c.isDigit = true)
    (stop : ∀ c ∈ after.head?, c.isDigit = false) : digits? (ds ++ after) = some (ds, after) := by
  have rest : after.takeWhile Char.isDigit = [] ∧ after.dropWhile Char.isDigit = after := by
    cases after with
    | nil => exact ⟨rfl, rfl⟩
    | cons c after => simp [stop c rfl]
  simp [digits?, List.takeWhile_append_of_pos digits, List.dropWhile_append_of_pos digits, rest, ne]

lemma exponent?_of_ends {after : List Char} (h : Ends after) : exponent? after = some (0, after) := by
  unfold exponent?
  split
  case h_3 => rfl
  all_goals simpa using h _ rfl

lemma fraction?_of_ends {after : List Char} (h : Ends after) :
    fraction? after = some ([], after) := by
  unfold fraction?
  split
  · simpa using h _ rfl
  · rfl

/-- The digits of a number do not begin with a zero. -/
lemma head?_toDigits_ne {n : Nat} (pos : 0 < n) : (Nat.toDigits 10 n).head? ≠ some '0' := by
  induction n using Nat.strong_induction_on with
  | _ n ih =>
    rw [Nat.toDigits_eq_if (by decide)]
    split
    case isTrue small =>
      interval_cases n <;> decide
    case isFalse large =>
      have first := ih (n / 10) (by omega) (by omega)
      rwa [List.head?_append_of_ne_nil _ Nat.toDigits_ne_nil]

lemma unsigned?_of_parts {cs cs₁ cs₂ rest whole fraction : List Char} {e : Int}
    (hw : whole? cs = some (whole, cs₁)) (hf : fraction? cs₁ = some (fraction, cs₂))
    (he : exponent? cs₂ = some (e, rest)) :
    unsigned? cs = some (decimal whole fraction e, rest) := by
  simp [unsigned?, hw, hf, he]

lemma whole?_append {ds after : List Char} (ne : ds ≠ []) (digits : ∀ c ∈ ds, c.isDigit = true)
    (alone : ds.head? ≠ some '0' ∨ ds.length = 1) (stop : ∀ c ∈ after.head?, c.isDigit = false) :
    whole? (ds ++ after) = some (ds, after) := by
  rw [whole?, digits?_append ne digits stop]
  simpa using alone

/-- Digits, a point and digits. -/
lemma unsigned?_point {whole fraction after rest : List Char} {e : Int} (ne : whole ≠ [])
    (ne' : fraction ≠ []) (digits : ∀ c ∈ whole ++ fraction, c.isDigit = true)
    (alone : whole.head? ≠ some '0' ∨ whole.length = 1)
    (stop : ∀ c ∈ after.head?, c.isDigit = false) (he : exponent? after = some (e, rest)) :
    unsigned? (whole ++ '.' :: fraction ++ after) = some (decimal whole fraction e, rest) := by
  have left : ∀ c ∈ whole, c.isDigit = true := fun c hc => digits c (List.mem_append_left _ hc)
  have right : ∀ c ∈ fraction, c.isDigit = true := fun c hc => digits c (List.mem_append_right _ hc)
  rw [List.append_assoc, List.cons_append]
  refine unsigned?_of_parts (whole?_append ne left alone ?_) (digits?_append ne' right stop) he
  rintro c ⟨⟩
  rfl

lemma alone_toDigits (n : Nat) :
    (Nat.toDigits 10 n).head? ≠ some '0' ∨ (Nat.toDigits 10 n).length = 1 := by
  rcases Nat.eq_zero_or_pos n with rfl | pos
  · exact .inr rfl
  · exact .inl (head?_toDigits_ne pos)

lemma decimal_nil (n : Nat) : decimal (Nat.toDigits 10 n) [] 0 = n := by
  simp [decimal]

lemma unsigned?_toDigits (n : Nat) {after : List Char} (ends : Ends after) :
    unsigned? (Nat.toDigits 10 n ++ after) = some ((n : ℚ), after) := by
  rw [← decimal_nil]
  refine unsigned?_of_parts (whole?_append Nat.toDigits_ne_nil ?_ (alone_toDigits n)
    ends.not_isDigit) (fraction?_of_ends ends) (exponent?_of_ends ends)
  exact fun c hc => Nat.isDigit_of_mem_toDigits (by decide) (by decide) hc

end Reader
end Json

/-- The number that a decimal stands for. -/
def Decimal.value (d : Decimal) : ℚ :=
  d.digits * 10 ^ d.exponent

namespace Json.Reader

variable {d : Decimal} {after : List Char}

lemma digitText_ne_nil : d.digitText ≠ [] :=
  Nat.toDigits_ne_nil

lemma ofDigitChars_digitText : Nat.ofDigitChars 10 d.digitText 0 = d.digits :=
  Nat.ofDigitChars_ten_toDigits

lemma isDigit_of_mem_digitText {d : Decimal} : ∀ c ∈ d.digitText, c.isDigit = true :=
  fun _ hc => Nat.isDigit_of_mem_toDigits (by decide) (by decide) hc


/-- A decimal without an exponent is digits, a point and digits. -/
lemma exists_point_positional (ne : d.digits ≠ 0) :
    ∃ whole fraction, (d.positional ".0").toList = whole ++ '.' :: fraction ∧
      whole ≠ [] ∧ fraction ≠ [] ∧ (∀ c ∈ whole ++ fraction, c.isDigit = true) ∧
      (whole.head? ≠ some '0' ∨ whole.length = 1) ∧ decimal whole fraction 0 = d.value := by
  have first : d.digitText.head? ≠ some '0' := head?_toDigits_ne (Nat.pos_of_ne_zero ne)
  have zeros (k : Nat) : ∀ c ∈ List.replicate k '0', c.isDigit = true := by
    intro c hc
    rw [List.eq_of_mem_replicate hc]
    rfl
  simp only [Decimal.positional]
  split_ifs with large mixed
  · -- all digits stand before the point, and zeros after them
    obtain ⟨k, hk⟩ := Int.eq_ofNat_of_zero_le large
    refine ⟨d.digitText ++ List.replicate k '0', ['0'], ?_, ?_, by simp, ?_, .inl ?_, ?_⟩
    · simp [hk]
    · simp [digitText_ne_nil]
    · intro c hc
      simp only [List.mem_append, List.mem_singleton] at hc
      rcases hc with (hc | hc) | rfl
      · exact isDigit_of_mem_digitText c hc
      · exact zeros k c hc
      · rfl
    · rwa [List.head?_append_of_ne_nil _ digitText_ne_nil]
    · rw [decimal, Nat.ofDigitChars_append, Nat.ofDigitChars_append, ofDigitChars_digitText,
        Nat.ofDigitChars_replicate_zero, Decimal.value, hk]
      simp [Nat.ofDigitChars_cons]
      field_simp
  · -- the point stands among the digits
    obtain ⟨p, hp⟩ := Int.eq_ofNat_of_zero_le mixed.le
    have length : (d.digitText.length : Int) + d.exponent = p := hp
    have split : d.digitText.take p ++ d.digitText.drop p = d.digitText := List.take_append_drop _ _
    refine ⟨d.digitText.take p, d.digitText.drop p, ?_, ?_, ?_, ?_, .inl ?_, ?_⟩
    · simp [hp]
    · rw [← List.length_pos_iff, List.length_take]
      omega
    · rw [← List.length_pos_iff, List.length_drop]
      omega
    · rw [split]
      exact isDigit_of_mem_digitText
    · rwa [List.head?_take, if_neg (by omega)]
    · rw [decimal, split, ofDigitChars_digitText, Decimal.value, List.length_drop]
      congr 2
      omega
  · -- zeros stand between the point and the digits
    obtain ⟨k, hk⟩ := Int.eq_ofNat_of_zero_le (show 0 ≤ -d.pointAt by omega)
    have length : -((d.digitText.length : Int) + d.exponent) = k := hk
    refine ⟨['0'], List.replicate k '0' ++ d.digitText, ?_, by simp, ?_, ?_, .inr rfl, ?_⟩
    · simp [hk]
    · simp [digitText_ne_nil]
    · intro c hc
      simp only [List.mem_append, List.mem_singleton] at hc
      rcases hc with rfl | hc | hc
      · rfl
      · exact zeros k c hc
      · exact isDigit_of_mem_digitText c hc
    · have zero : Nat.ofDigitChars 10 (['0'] ++ List.replicate k '0') 0 = 0 := by
        rw [Nat.ofDigitChars_append, Nat.ofDigitChars_replicate_zero]
        rfl
      rw [decimal, ← List.append_assoc, Nat.ofDigitChars_append, zero, ofDigitChars_digitText,
        Decimal.value, List.length_append, List.length_replicate]
      congr 2
      omega

lemma unsigned?_positional (ne : d.digits ≠ 0) (ends : Ends after) :
    unsigned? ((d.positional ".0").toList ++ after) = some (d.value, after) := by
  obtain ⟨whole, fraction, text, ne, ne', digits, alone, value⟩ := exists_point_positional ne
  rw [text, ← value]
  exact unsigned?_point ne ne' digits alone ends.not_isDigit (exponent?_of_ends ends)

lemma exponent?_toDigits (e : Int) (ends : Ends after) :
    exponent? ('e' :: (if 0 ≤ e then '+' else '-') :: (Nat.toDigits 10 e.natAbs ++ after)) =
      some (e, after) := by
  have read : digits? (Nat.toDigits 10 e.natAbs ++ after) =
      some (Nat.toDigits 10 e.natAbs, after) :=
    digits?_append Nat.toDigits_ne_nil
      (fun c hc => Nat.isDigit_of_mem_toDigits (by decide) (by decide) hc) ends.not_isDigit
  split_ifs with sign
  · simp only [exponent?, signed?, read, Option.map_some, Nat.ofDigitChars_ten_toDigits]
    rw [Int.natAbs_of_nonneg sign]
  · simp only [exponent?, signed?, read, Option.map_some, Nat.ofDigitChars_ten_toDigits]
    rw [Int.ofNat_natAbs_of_nonpos (by omega), Int.neg_neg]

lemma toList_scientific {c : Char} {cs : List Char} (text : d.digitText = c :: cs) :
    d.scientific.toList ++ after = (if cs.isEmpty then [c] else c :: '.' :: cs) ++
      'e' :: (if 0 ≤ d.pointAt - 1 then '+' else '-') ::
        (Nat.toDigits 10 (d.pointAt - 1).natAbs ++ after) := by
  simp only [Decimal.scientific, text, String.toList_append, Nat.toString_eq_ofList_toDigits,
    List.drop_one, List.tail_cons]
  split_ifs
  all_goals simp_all

/-- A decimal with an exponent has one digit before the point. -/
lemma unsigned?_scientific (ne : d.digits ≠ 0) (ends : Ends after) :
    unsigned? (d.scientific.toList ++ after) = some (d.value, after) := by
  have first : d.digitText.head? ≠ some '0' := head?_toDigits_ne (Nat.pos_of_ne_zero ne)
  have last := exponent?_toDigits (d.pointAt - 1) ends
  obtain ⟨c, cs, text⟩ := List.exists_cons_of_ne_nil (digitText_ne_nil (d := d))
  have digits : ∀ x ∈ c :: cs, x.isDigit = true := text ▸ isDigit_of_mem_digitText
  rw [text] at first
  have value : decimal [c] cs (d.pointAt - 1) = d.value := by
    rw [decimal, List.singleton_append, ← text, ofDigitChars_digitText, Decimal.value,
      Decimal.pointAt, text, List.length_cons]
    congr 2
    omega
  have stop : ∀ x ∈ ('e' :: (if 0 ≤ d.pointAt - 1 then '+' else '-') ::
      (Nat.toDigits 10 (d.pointAt - 1).natAbs ++ after)).head?, x.isDigit = false := by
    rintro x ⟨⟩
    rfl
  rw [toList_scientific text, ← value]
  cases cs with
  | nil => exact unsigned?_of_parts (whole?_append (by simp) digits (.inl first) stop) rfl last
  | cons c' cs =>
    change unsigned? ([c] ++ '.' :: (c' :: cs) ++ _) = _
    exact unsigned?_point (by simp) (by simp) digits (.inl first) stop last

end Json.Reader

namespace Magnitude

lemma digits_ne_zero_of_strip {left : Nat} {d : Decimal} (ne : d.digits ≠ 0) :
    (d.strip left).digits ≠ 0 := by
  induction left generalizing d with
  | zero => exact ne
  | succ left ih =>
    rw [Decimal.strip]
    split
    case isTrue more =>
      refine ih ?_
      dsimp only
      omega
    case isFalse => exact ne

lemma scale_zero {den : Nat} (pos : 0 < den) (e : Int) :
    (scale 0 den e).1 = 0 ∧ 0 < (scale 0 den e).2 := by
  rw [scale]
  split
  · exact ⟨rfl, Nat.mul_pos pos (Nat.two_pow_pos _)⟩
  · exact ⟨Nat.zero_mul _, pos⟩

/-- Zero rounds to no other magnitude. -/
lemma roundsTo_zero {m : Nat} (pos : 0 < m) (e t : Int) : roundsTo m e 0 t = false := by
  have den : 0 < if 0 ≤ t then 1 else Nat.pow 10 (-t).toNat := by
    split
    · exact Nat.one_pos
    · exact Nat.pow_pos (by decide)
  have margin : marginBelow m e ≤ 2 := by
    rw [marginBelow]
    split
    all_goals decide
  obtain ⟨num, den⟩ := scale_zero den (e - 2)
  have low : 0 < (4 * m - marginBelow m e) *
      (scale 0 (if 0 ≤ t then 1 else Nat.pow 10 (-t).toNat) (e - 2)).2 := Nat.mul_pos (by omega) den
  simp only [roundsTo, Nat.zero_mul, ite_self, num]
  split
  all_goals simp only [Bool.and_eq_false_iff, decide_eq_false_iff_not]
  all_goals omega

lemma roundsTo_of_nearest? {tie : Tie} {m d : Nat} {e t : Int} (h : nearest? tie m e t = some d) :
    roundsTo m e d t = true := by
  simp only [nearest?] at h
  split_ifs at h
  all_goals
    obtain rfl := Option.some.inj h
    assumption

lemma digits_ne_zero_of_nearest? {tie : Tie} {m d : Nat} {e t : Int} (pos : 0 < m)
    (h : nearest? tie m e t = some d) : d ≠ 0 := by
  rintro rfl
  have rounds := roundsTo_of_nearest? h
  rw [roundsTo_zero pos] at rounds
  cases rounds

lemma digits_search_ne_zero {tie : Tie} {m left : Nat} {e t : Int} (pos : 0 < m) :
    (search tie m e left t).digits ≠ 0 := by
  induction left generalizing t with
  | zero =>
    rw [search]
    cases h : nearest? tie m e t with
    | none => simp
    | some d => exact digits_ne_zero_of_nearest? pos h
  | succ left ih =>
    rw [search]
    split
    case h_1 d h => exact digits_ne_zero_of_nearest? pos h
    case h_2 => exact ih

lemma digits_shortest_ne_zero {tie : Tie} {m : Nat} {e : Int} (pos : 0 < m) :
    (shortest tie m e).digits ≠ 0 := by
  rw [shortest, if_neg (by omega)]
  exact digits_ne_zero_of_strip (digits_search_ne_zero pos)

/-- What the text of a magnitude denotes. -/
def value : Magnitude → Json.Value
  | infinite => .null
  | finite m e =>
    match toNat? (finite m e) with
    | some n => .number (if n ≤ greatestSafe then n else (shortest .toEven m e).value)
    | none => .number (shortest .toEven m e).value

end Magnitude

namespace Json.Reader

variable {after : List Char}

lemma unsigned?_inexact {d : Decimal} (ne : d.digits ≠ 0) (ends : Ends after) :
    unsigned? ((Magnitude.jsonText.inexact d).toList ++ after) = some (d.value, after) := by
  rw [Magnitude.jsonText.inexact]
  split
  · exact unsigned?_positional ne ends
  · exact unsigned?_scientific ne ends

lemma exists_isDigit_of_unsigned? {cs rest : List Char} {q : ℚ} (h : unsigned? cs = some (q, rest)) :
    ∃ c cs', cs = c :: cs' ∧ c.isDigit = true := by
  cases cs with
  | nil => cases h
  | cons c cs =>
    refine ⟨c, cs, rfl, ?_⟩
    by_contra no
    simp [unsigned?, whole?, digits?, no] at h

lemma token?_of_unsigned? {cs rest : List Char} {q : ℚ} (h : unsigned? cs = some (q, rest)) :
    token? cs = some (.scalar (.number q), rest) := by
  obtain ⟨c, cs, rfl, digit⟩ := exists_isDigit_of_unsigned? h
  -- no other token begins with a digit
  unfold token?
  split
  case h_11 =>
    unfold number?
    split
    case h_1 e =>
      cases e
      cases digit
    case h_2 => rw [h, Option.map_some]
  all_goals
    next e =>
      cases e
      cases digit

end Json.Reader

namespace Magnitude

lemma toNat?_zero (e : Int) : toNat? (finite 0 e) = some 0 := by
  simp [toNat?]

lemma pos_of_not_safe {m : Nat} {e : Int} (h : ∀ n, toNat? (finite m e) = some n → greatestSafe < n) :
    0 < m := by
  by_contra zero
  obtain rfl : m = 0 := by omega
  exact absurd (h 0 (toNat?_zero e)) (by decide)

end Magnitude

namespace Json.Reader

/-- The text of a magnitude is one token. -/
lemma token?_jsonText (m : Magnitude) (ends : Ends after) :
    token? (m.jsonText.toList ++ after) = some (.scalar m.value, after) := by
  cases m with
  | infinite => rfl
  | finite m e =>
    have inexact (large : ∀ n, Magnitude.toNat? (.finite m e) = some n →
        Magnitude.greatestSafe < n) :
        token? ((Magnitude.jsonText.inexact (Magnitude.shortest .toEven m e)).toList ++ after) =
          some (.scalar (.number (Magnitude.shortest .toEven m e).value), after) := by
      have pos := Magnitude.pos_of_not_safe large
      exact token?_of_unsigned? (unsigned?_inexact (Magnitude.digits_shortest_ne_zero pos) ends)
    rw [Magnitude.jsonText, Magnitude.value]
    cases whole : Magnitude.toNat? (.finite m e) with
    | some n =>
      dsimp only
      by_cases safeNat : n ≤ Magnitude.greatestSafe
      · rw [if_pos safeNat, if_pos safeNat, Nat.toString_eq_ofList_toDigits, String.toList_ofList]
        exact token?_of_unsigned? (unsigned?_toDigits n ends)
      · rw [if_neg safeNat, if_neg safeNat]
        refine inexact fun k hk => ?_
        obtain rfl := Option.some.inj (whole.symm.trans hk)
        omega
    | none =>
      refine inexact fun k hk => ?_
      rw [whole] at hk
      cases hk

end Json.Reader
end ScriptTyping
