import Mathlib.Tactic.Lemma
import ScriptTyping.Syntax.Escape

/-!
# Ways to write a string

Between the quotes of a string a character is written as itself, behind a backslash, by a letter or by
its number, and lines may be joined anywhere (`Writes`). Whichever way is taken for each character, the
text stands for the characters that are written (`unescape_of_writes`).

In UTF-16 a character takes one code unit or two. A text that writes each unit by its number stands for
the characters exactly if none of them takes two (`unescape_of_writesUnits_iff`): half of a pair is no
character, and its escape stands for itself.
-/

namespace ScriptTyping.Syntax

/-! ### Hexadecimal digits -/

/-- The hexadecimal digits of a number, each in either case, and perhaps behind zeros. -/
def IsHex (n : Nat) (ds : List Char) : Prop :=
  ∃ zeros, ds.map Char.toLower = List.replicate zeros '0' ++ Nat.toDigits 16 n

section Digits

variable {n : Nat} {ds : List Char}

lemma hexValue?_toLower (c : Char) : hexValue? c.toLower = hexValue? c := by
  by_cases upper : c.val ≥ 'A'.val ∧ c.val ≤ 'Z'.val
  · have table : ∀ k < 26, hexValue? (Char.ofNat (65 + k)).toLower = hexValue? (Char.ofNat (65 + k)) := by
      decide
    have low : 65 ≤ c.toNat := upper.1
    have high : c.toNat ≤ 90 := upper.2
    have here := table (c.toNat - 65) (by omega)
    rwa [Nat.add_sub_cancel' low, Char.ofNat_toNat] at here
  · have same : c.toLower = c := dif_neg upper
    rw [same]

lemma hexValues?_map_toLower (n : Nat) (ds : List Char) :
    hexValues? n (ds.map Char.toLower) = hexValues? n ds := by
  induction ds generalizing n with
  | nil => rfl
  | cons d ds ih => simp only [List.map_cons, hexValues?, hexValue?_toLower, ih]

lemma hexValues?_append (n : Nat) (ds es : List Char) :
    hexValues? n (ds ++ es) = (hexValues? n ds).bind (hexValues? · es) := by
  induction ds generalizing n with
  | nil => rfl
  | cons d ds ih =>
    simp only [List.cons_append, hexValues?, ih]
    cases hexValue? d
    all_goals rfl

lemma hexValues?_zeros (zeros : Nat) : hexValues? 0 (List.replicate zeros '0') = some 0 := by
  induction zeros with
  | zero => rfl
  | succ zeros ih => exact ih

lemma hexValues?_toDigits (n : Nat) : hexValues? 0 (Nat.toDigits 16 n) = some n := by
  have digit : ∀ d < 16, hexValue? d.digitChar = some d := by decide
  induction n using Nat.strongRecOn with
  | ind n ih =>
    by_cases small : n < 16
    · rw [Nat.toDigits_of_lt_base small, hexValues?, digit n small]
      exact congrArg some (by omega)
    · rw [Nat.toDigits_of_base_le (by decide) (by omega), hexValues?_append, ih (n / 16) (by omega),
        Option.bind_some, hexValues?, digit (n % 16) (by omega)]
      exact congrArg some (by omega)

namespace IsHex

lemma values (h : IsHex n ds) : hexValues? 0 ds = some n := by
  obtain ⟨zeros, same⟩ := h
  rw [← hexValues?_map_toLower, same, hexValues?_append, hexValues?_zeros, Option.bind_some,
    hexValues?_toDigits]

/-- Digits are digits, and there is at least one. -/
lemma exists_cons (h : IsHex n ds) :
    (∃ e es, ds = e :: es) ∧ ∀ d ∈ ds, (hexValue? d).isSome = true := by
  have each : ∀ (ds : List Char) (k m : Nat), hexValues? k ds = some m →
      ∀ d ∈ ds, (hexValue? d).isSome = true := by
    intro ds
    induction ds with
    | nil => simp
    | cons e es ih =>
      intro k m values
      obtain ⟨v, here, rest⟩ := Option.bind_eq_some_iff.1 values
      exact List.forall_mem_cons.2 ⟨by rw [here]; rfl, ih _ _ rest⟩
  refine ⟨List.exists_cons_of_ne_nil ?_, each ds 0 n h.values⟩
  rintro rfl
  obtain ⟨zeros, same⟩ := h
  exact Nat.toDigits_ne_nil (List.append_eq_nil_iff.1 same.symm).2

lemma number (h : IsHex n ds) : hexNumber? ds = some n := by
  obtain ⟨⟨e, es, rfl⟩, digits⟩ := h.exists_cons
  have unsigned : (e :: es).head? ≠ some '+' := by
    rintro ⟨⟩
    exact absurd (digits '+' List.mem_cons_self) (by decide)
  rw [hexNumber?, if_neg unsigned]
  exact h.values

lemma notMem {c : Char} (h : IsHex n ds) (other : hexValue? c = none) : c ∉ ds := by
  intro hc
  have digit := h.exists_cons.2 c hc
  rw [other] at digit
  cases digit

/-- The escape of a number stands for its character, if it has one, and otherwise for itself. -/
lemma numericEscape_eq (h : IsHex n ds) (letter : Char) :
    numericEscape letter ds = match charOf? n with
      | some c => [c]
      | none => '\\' :: letter :: ds := by
  have read : (hexNumber? ds).bind charOf? = charOf? n := by rw [h.number, Option.bind_some]
  rw [← read]
  rfl

end IsHex

end Digits

lemma charOf?_toNat (c : Char) : charOf? c.toNat = some c := by
  have valid : c.toNat.isValidChar := c.valid
  rw [charOf?, dif_pos valid]
  rfl

/-! ### Ways to write a character -/

/-- The letters that stand for control characters behind a backslash. -/
def controls : List (Char × Char) :=
  [('n', '\n'), ('t', '\t'), ('r', '\r'), ('b', '\x08'), ('f', '\x0c'), ('v', '\x0b'), ('0', '\x00')]

/-- The characters that do not stand for themselves behind a backslash. -/
def special : List Char :=
  controls.map Prod.fst ++ ['x', 'u', '\r', '\n']

/-- The ways to write a character. -/
inductive Spelling : Char → List Char → Prop
  | plain {c : Char} : c ∉ ['\\', '\r', '\n'] → Spelling c [c]
  | letter {x c : Char} : (x, c) ∈ controls → Spelling c ['\\', x]
  | behind {c : Char} : c ∉ special → Spelling c ['\\', c]
  | byte {c : Char} {ds : List Char} :
    IsHex c.toNat ds → ds.length = 2 → Spelling c ('\\' :: 'x' :: ds)
  | unit {c : Char} {ds : List Char} :
    IsHex c.toNat ds → ds.length = 4 → Spelling c ('\\' :: 'u' :: ds)
  | point {c : Char} {ds : List Char} :
    IsHex c.toNat ds → Spelling c ('\\' :: 'u' :: '\x7b' :: (ds ++ ['\x7d']))

/-- The ways to join two lines. -/
def joins : List (List Char) :=
  [['\\', '\n'], ['\\', '\r', '\n'], ['\\', '\r']]

/-- The ways to write a string: each character in some way, and lines that are joined anywhere. -/
inductive Writes : List Char → List Char → Prop
  | nil : Writes [] []
  | char {c : Char} {s w b : List Char} : Spelling c w → Writes s b → Writes (c :: s) (w ++ b)
  | join {s w b : List Char} : w ∈ joins → Writes s b → Writes s (w ++ b)

section Reading

variable {c : Char} {n : Nat} {cs ds s b w : List Char}

attribute [local simp] unescape

lemma unescape_plain (plain : c ≠ '\\') : unescape (c :: cs) = c :: unescape cs := by
  simp [plain]

lemma unescape_behind (other : c ∉ ['x', 'u', '\r', '\n']) :
    unescape ('\\' :: c :: cs) = letterEscape c :: unescape cs := by
  simp_all

lemma unescape_byte (two : ds.length = 2) :
    unescape ('\\' :: 'x' :: (ds ++ cs)) = numericEscape 'x' ds ++ unescape cs := by
  rw [unescape, List.take_left' two, List.drop_left' two]

lemma unescape_unit (hex : IsHex n ds) (four : ds.length = 4) :
    unescape ('\\' :: 'u' :: (ds ++ cs)) = numericEscape 'u' ds ++ unescape cs := by
  obtain ⟨⟨e, es, rfl⟩, -⟩ := hex.exists_cons
  have unbraced : e ≠ '\x7b' := by
    rintro rfl
    exact hex.notMem (by decide) List.mem_cons_self
  have digits : unicodeDigits (e :: es ++ cs) = ((e :: es ++ cs).take 4, (e :: es ++ cs).drop 4) := by
    rw [List.cons_append, unicodeDigits]
    exact fun _ open' => unbraced (List.cons.inj open').1
  rw [unescape, digits, List.take_left' four, List.drop_left' four]

lemma unescape_point (hex : IsHex n ds) :
    unescape ('\\' :: 'u' :: '\x7b' :: (ds ++ '\x7d' :: cs)) =
      numericEscape 'u' ds ++ unescape cs := by
  have inside : ∀ d ∈ ds, (d != '\x7d') = true := by
    intro d hd
    simp only [bne_iff_ne, ne_eq]
    rintro rfl
    exact hex.notMem (by decide) hd
  have digits : unicodeDigits ('\x7b' :: (ds ++ '\x7d' :: cs)) = (ds, cs) := by
    rw [unicodeDigits, List.takeWhile_append_of_pos inside, List.dropWhile_append_of_pos inside]
    simp
  rw [unescape, digits]

/-- However a character is written, it is read before all else. -/
lemma Spelling.unescape_append (h : Spelling c w) (cs : List Char) :
    unescape (w ++ cs) = c :: unescape cs := by
  have number {ds : List Char} (hex : IsHex c.toNat ds) (letter : Char) :
      numericEscape letter ds = [c] := by
    rw [hex.numericEscape_eq, charOf?_toNat]
  cases h with
  | plain free =>
    refine unescape_plain ?_
    rintro rfl
    exact free List.mem_cons_self
  | letter mem =>
    have table : ∀ p ∈ controls, p.1 ∉ ['x', 'u', '\r', '\n'] ∧ letterEscape p.1 = p.2 := by decide
    obtain ⟨other, means⟩ := table _ mem
    exact (unescape_behind other).trans (by rw [means]; rfl)
  | behind free =>
    rw [special, List.mem_append, not_or] at free
    have itself : letterEscape c = c := by
      have letters := free.1
      simp only [controls, List.map_cons, List.map_nil, List.mem_cons, List.not_mem_nil, or_false,
        not_or] at letters
      unfold letterEscape
      split
      all_goals simp_all
    exact (unescape_behind free.2).trans (by rw [itself]; rfl)
  | byte hex two =>
    exact (unescape_byte two).trans (by rw [number hex]; rfl)
  | unit hex four =>
    exact (unescape_unit hex four).trans (by rw [number hex]; rfl)
  | point hex =>
    simp only [List.cons_append, List.append_assoc, List.nil_append]
    rw [unescape_point hex, number hex]
    rfl

/-- No text begins with a line feed that is written as itself, so a carriage return before it joins the
lines alone. -/
lemma Writes.head?_ne (h : Writes s b) : b.head? ≠ some '\n' := by
  cases h with
  | nil => simp
  | char spelling rest =>
    cases spelling with
    | plain free =>
      rintro ⟨⟩
      simp at free
    | _ => simp
  | join mem rest =>
    have table : ∀ w ∈ joins, w.head? = some '\\' := by decide
    rw [List.head?_append, table _ mem]
    simp

lemma unescape_join (mem : w ∈ joins) (next : cs.head? ≠ some '\n') :
    unescape (w ++ cs) = unescape cs := by
  simp only [joins, List.mem_cons, List.not_mem_nil, or_false] at mem
  rcases mem with rfl | rfl | rfl
  · exact unescape.eq_3 cs
  · exact unescape.eq_4 cs
  · refine unescape.eq_5 cs ?_
    rintro _ rfl
    exact next rfl

/-- Whichever way each character of a string is written, and wherever lines are joined, the text stands
for the string. -/
theorem unescape_of_writes (h : Writes s b) : unescape b = s := by
  induction h with
  | nil => exact unescape.eq_1
  | char spelling _ ih => rw [spelling.unescape_append, ih]
  | join mem rest ih => rw [unescape_join mem rest.head?_ne, ih]

/-- A line is joined between a letter and a number that begins with zeros. -/
theorem unescape_of_writes_joined :
    Writes "n\n😊x".toList "n\\n\\\r\\u\x7b0001F60a\x7d\\x78".toList ∧
      unescape "n\\n\\\r\\u\x7b0001F60a\x7d\\x78".toList = "n\n😊x".toList := by
  have point : IsHex '😊'.toNat "0001F60a".toList := ⟨3, by decide⟩
  have byte : IsHex 'x'.toNat "78".toList := ⟨0, by decide⟩
  have writes : Writes "n\n😊x".toList
      ("n".toList ++ ("\\n".toList ++ ("\\\r".toList ++ ("\\u\x7b0001F60a\x7d".toList ++
        ("\\x78".toList ++ []))))) :=
    .char (.plain (by decide)) (.char (.letter (by decide)) (.join (by decide)
      (.char (.point point) (.char (.byte byte rfl) .nil))))
  exact ⟨writes, unescape_of_writes writes⟩

end Reading

/-! ### Code units -/

/-- The code units of a character in UTF-16. -/
def codeUnits (c : Char) : List Nat :=
  if c.toNat < 0x10000 then [c.toNat]
  else [0xd800 + (c.toNat - 0x10000) / 0x400, 0xdc00 + (c.toNat - 0x10000) % 0x400]

/-- The ways to write code units by their numbers. -/
inductive WritesUnits : List Nat → List Char → Prop
  | nil : WritesUnits [] []
  | cons {n : Nat} {ns : List Nat} {ds b : List Char} :
    IsHex n ds → ds.length = 4 → WritesUnits ns b → WritesUnits (n :: ns) ('\\' :: 'u' :: (ds ++ b))

section Units

variable {n : Nat} {b ds : List Char} {c : Char}

/-- Half of a pair is no character. -/
lemma charOf?_half (low : 0xd800 ≤ n) (high : n < 0xe000) : charOf? n = none := by
  rw [charOf?, dif_neg]
  intro valid
  rcases valid with valid | valid
  all_goals omega

/-- The first unit of a pair stands for its escape. -/
lemma unescape_pair {ns : List Nat} (large : ¬ c.toNat < 0x10000)
    (h : WritesUnits (codeUnits c ++ ns) b) : ∃ cs, unescape b = '\\' :: cs := by
  have bound : c.toNat < 0x110000 := by
    rcases c.valid with valid | valid
    · exact Nat.lt_trans valid (by decide)
    · exact valid.2
  rw [codeUnits, if_neg large] at h
  cases h with
  | cons hex four rest =>
    rw [unescape_unit hex four, hex.numericEscape_eq, charOf?_half (by omega) (by omega)]
    exact ⟨_, rfl⟩

/-- A text that writes the code units of a string by their numbers stands for the string exactly if each
of its characters has one code unit. -/
theorem unescape_of_writesUnits_iff {s : List Char} (h : WritesUnits (s.flatMap codeUnits) b) :
    unescape b = s ↔ ∀ c ∈ s, c.toNat < 0x10000 := by
  induction s generalizing b with
  | nil =>
    cases h
    simp [unescape]
  | cons c s ih =>
    rw [List.flatMap_cons] at h
    by_cases small : c.toNat < 0x10000
    · rw [codeUnits, if_pos small] at h
      cases h with
      | cons hex four rest =>
        rw [unescape_unit hex four, hex.numericEscape_eq, charOf?_toNat, List.singleton_append,
          List.cons.injEq, ih rest, List.forall_mem_cons]
        exact and_congr_left fun _ => ⟨fun _ => small, fun _ => rfl⟩
    · obtain ⟨cs, read⟩ := unescape_pair small h
      rw [read]
      constructor
      · rintro ⟨⟩
        exact absurd (by decide) small
      · exact fun all => absurd (all c List.mem_cons_self) small

/-- A character of two code units comes out as the escapes of the two. -/
theorem unescape_of_writesUnits_iff_pair :
    WritesUnits ("a😀".toList.flatMap codeUnits) "\\u0061\\ud83d\\uDE00".toList ∧
      unescape "\\u0061\\ud83d\\uDE00".toList = "a\\ud83d\\uDE00".toList ∧
      ¬ unescape "\\u0061\\ud83d\\uDE00".toList = "a😀".toList := by
  have letter : IsHex 'a'.toNat "0061".toList := ⟨2, by decide⟩
  have high : IsHex 0xd83d "d83d".toList := ⟨0, by decide⟩
  have low : IsHex 0xde00 "DE00".toList := ⟨0, by decide⟩
  have units : "a😀".toList.flatMap codeUnits = [0x61, 0xd83d, 0xde00] := by decide
  have writes : WritesUnits ("a😀".toList.flatMap codeUnits) "\\u0061\\ud83d\\uDE00".toList :=
    units ▸ .cons letter rfl (.cons high rfl (.cons low rfl .nil))
  have read : unescape "\\u0061\\ud83d\\uDE00".toList = "a\\ud83d\\uDE00".toList := by
    change unescape ('\\' :: 'u' :: ("0061".toList ++ '\\' :: 'u' :: ("d83d".toList ++
      '\\' :: 'u' :: ("DE00".toList ++ [])))) = _
    rw [unescape_unit letter rfl, unescape_unit high rfl, unescape_unit low rfl,
      letter.numericEscape_eq, high.numericEscape_eq, low.numericEscape_eq,
      charOf?_toNat 'a', charOf?_half (n := 0xd83d) (by decide) (by decide),
      charOf?_half (n := 0xde00) (by decide) (by decide), unescape.eq_1]
    rfl
  refine ⟨writes, read, fun same => ?_⟩
  exact absurd ((unescape_of_writesUnits_iff writes).1 same '😀' (by decide)) (by decide)

end Units

end ScriptTyping.Syntax
