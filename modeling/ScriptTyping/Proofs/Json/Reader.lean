import Mathlib.Algebra.Field.Rat
import Mathlib.Tactic.Lemma
import ScriptTyping.Json
import ScriptTyping.Number.Literal

/-!
# Reading JSON

A reader of JSON that shares nothing with what writes it. `token?` takes one sign, word, number or
string from the beginning of a text; `State.next?` says what a token does to the values that are
begun and not ended; `decode?` runs the two over a whole text. It accepts the texts of the grammar
of JSON and no others: no comma without something after it, no zero before other digits, no control
character in a string, and no half of a surrogate pair on its own.
-/

namespace ScriptTyping.Json

/-- What a text denotes. A number is a quotient and not rounded; an object keeps its members in
order, also those that repeat a key. -/
inductive Value where
  | null
  | bool (b : Bool)
  | number (q : ℚ)
  | string (s : String)
  | array (items : List Value)
  | object (members : List (String × Value))

/-- What a text is made of, but for blanks. -/
inductive Token where
  | openBracket
  | closeBracket
  | openBrace
  | closeBrace
  | colon
  | comma
  | scalar (v : Value)
  | string (s : String)

namespace Reader

/-- The blanks between tokens. -/
def isBlank (c : Char) : Bool :=
  c == ' ' || c == '\n' || c == '\r' || c == '\t'

/-! ### Numbers -/

/-- The digits that a text begins with, at least one. -/
def digits? (cs : List Char) : Option (List Char × List Char) :=
  let ds := cs.takeWhile Char.isDigit
  if ds = [] then none else some (ds, cs.dropWhile Char.isDigit)

/-- The digits before a point; a zero stands alone. -/
def whole? (cs : List Char) : Option (List Char × List Char) :=
  (digits? cs).filter fun (ds, _) => ds.head? ≠ some '0' ∨ ds.length = 1

/-- The digits after a point, if there is one. -/
def fraction? : List Char → Option (List Char × List Char)
  | '.' :: cs => digits? cs
  | cs => some ([], cs)

/-- Digits with or without a sign. -/
def signed? : List Char → Option (Int × List Char)
  | '-' :: cs => (digits? cs).map fun (ds, cs) => (-(Nat.ofDigitChars 10 ds 0 : Int), cs)
  | '+' :: cs => (digits? cs).map fun (ds, cs) => (Nat.ofDigitChars 10 ds 0, cs)
  | cs => (digits? cs).map fun (ds, cs) => (Nat.ofDigitChars 10 ds 0, cs)

/-- The exponent, if there is one. -/
def exponent? : List Char → Option (Int × List Char)
  | 'e' :: cs => signed? cs
  | 'E' :: cs => signed? cs
  | cs => some (0, cs)

/-- The number with these digits before and after the point, and a power of ten. -/
def decimal (whole fraction : List Char) (exponent : Int) : ℚ :=
  Nat.ofDigitChars 10 (whole ++ fraction) 0 * 10 ^ (exponent - fraction.length)

/-- A number without a sign. -/
def unsigned? (cs : List Char) : Option (ℚ × List Char) := do
  let (whole, cs) ← whole? cs
  let (fraction, cs) ← fraction? cs
  let (exponent, cs) ← exponent? cs
  return (decimal whole fraction exponent, cs)

/-- A number. -/
def number? : List Char → Option (ℚ × List Char)
  | '-' :: cs => (unsigned? cs).map fun (q, cs) => (-q, cs)
  | cs => unsigned? cs

/-! ### Strings -/

/-- A code unit of four hexadecimal digits. -/
def unit? : List Char → Option (Nat × List Char)
  | a :: b :: c :: d :: cs => (Literal.digits? 16 [a, b, c, d]).map fun n => (n, cs)
  | _ => none

/-- The character of a code unit, or of a pair of them. -/
def unicode? (cs : List Char) : Option (Char × List Char) :=
  (unit? cs).bind fun (high, cs) =>
    if high.isValidChar then some (Char.ofNat high, cs)
    else match cs with
      | '\\' :: 'u' :: cs => (unit? cs).bind fun (low, cs) =>
        if high < 0xdc00 ∧ 0xdc00 ≤ low ∧ low < 0xe000 then
          some (Char.ofNat (0x10000 + (high - 0xd800) * 0x400 + (low - 0xdc00)), cs)
        else none
      | _ => none

/-- The character that is written after a backslash. -/
def escape? : List Char → Option (Char × List Char)
  | '"' :: cs => some ('"', cs)
  | '\\' :: cs => some ('\\', cs)
  | '/' :: cs => some ('/', cs)
  | 'b' :: cs => some ('\x08', cs)
  | 'f' :: cs => some ('\x0c', cs)
  | 'n' :: cs => some ('\n', cs)
  | 'r' :: cs => some ('\r', cs)
  | 't' :: cs => some ('\t', cs)
  | 'u' :: cs => unicode? cs
  | _ => none

lemma length_lt_of_unit? {cs rest : List Char} {n : Nat} (h : unit? cs = some (n, rest)) :
    rest.length < cs.length := by
  unfold unit? at h
  split at h
  · obtain ⟨_, -, e⟩ := Option.map_eq_some_iff.1 h
    cases e
    simp only [List.length_cons]
    omega
  · cases h

lemma length_lt_of_unicode? {cs rest : List Char} {c : Char} (h : unicode? cs = some (c, rest)) :
    rest.length < cs.length := by
  obtain ⟨⟨high, mid⟩, hu, h⟩ := Option.bind_eq_some_iff.1 h
  have first := length_lt_of_unit? hu
  dsimp only at h
  split at h
  · cases h
    exact first
  · split at h
    · obtain ⟨⟨low, last⟩, hl, h⟩ := Option.bind_eq_some_iff.1 h
      have second := length_lt_of_unit? hl
      dsimp only at h
      split at h
      · obtain ⟨-, rfl⟩ := Prod.mk.inj (Option.some.inj h)
        simp only [List.length_cons] at first
        omega
      · cases h
    · cases h

lemma length_lt_of_escape? {cs rest : List Char} {c : Char} (h : escape? cs = some (c, rest)) :
    rest.length < cs.length := by
  unfold escape? at h
  split at h
  case h_9 => exact (length_lt_of_unicode? h).trans (by simp)
  case h_10 => cases h
  all_goals
    obtain ⟨-, rfl⟩ := Prod.mk.inj (Option.some.inj h)
    simp

/-- The characters up to a closing quote, and what follows it. -/
def string? : List Char → Option (List Char × List Char)
  | [] => none
  | '"' :: cs => some ([], cs)
  | '\\' :: cs =>
    match _h : escape? cs with
    | none => none
    | some (c, rest) => (string? rest).map fun (s, rest) => (c :: s, rest)
  | c :: cs => if c.toNat < 0x20 then none else (string? cs).map fun (s, rest) => (c :: s, rest)
  termination_by cs => cs.length
  decreasing_by
    · have := length_lt_of_escape? ‹_›
      simp only [List.length_cons]
      omega
    · exact Nat.lt_succ_self _

/-! ### Tokens -/

/-- The token that a text without blanks before it begins with, and what follows. -/
def token? : List Char → Option (Token × List Char)
  | '[' :: cs => some (.openBracket, cs)
  | ']' :: cs => some (.closeBracket, cs)
  | '\x7b' :: cs => some (.openBrace, cs)
  | '\x7d' :: cs => some (.closeBrace, cs)
  | ':' :: cs => some (.colon, cs)
  | ',' :: cs => some (.comma, cs)
  | 'n' :: 'u' :: 'l' :: 'l' :: cs => some (.scalar .null, cs)
  | 't' :: 'r' :: 'u' :: 'e' :: cs => some (.scalar (.bool true), cs)
  | 'f' :: 'a' :: 'l' :: 's' :: 'e' :: cs => some (.scalar (.bool false), cs)
  | '"' :: cs => (string? cs).map fun (s, cs) => (.string (String.ofList s), cs)
  | cs => (number? cs).map fun (q, cs) => (.scalar (.number q), cs)

lemma length_lt_of_digits? {cs ds rest : List Char} (h : digits? cs = some (ds, rest)) :
    rest.length < cs.length := by
  simp only [digits?] at h
  split at h
  · cases h
  · next ne =>
    cases h
    have pos := List.length_pos_iff.2 ne
    have whole := congrArg List.length (List.takeWhile_append_dropWhile (p := Char.isDigit) (l := cs))
    rw [List.length_append] at whole
    omega

lemma length_le_of_fraction? {cs ds rest : List Char} (h : fraction? cs = some (ds, rest)) :
    rest.length ≤ cs.length := by
  unfold fraction? at h
  split at h
  · have := length_lt_of_digits? h
    simp only [List.length_cons]
    omega
  · cases h
    exact Nat.le_refl _

lemma length_lt_of_signed? {cs rest : List Char} {e : Int} (h : signed? cs = some (e, rest)) :
    rest.length < cs.length := by
  unfold signed? at h
  split at h
  all_goals
    obtain ⟨⟨ds, rest⟩, hd, e⟩ := Option.map_eq_some_iff.1 h
    have := length_lt_of_digits? hd
    cases e
    grind

lemma length_le_of_exponent? {cs rest : List Char} {e : Int} (h : exponent? cs = some (e, rest)) :
    rest.length ≤ cs.length := by
  unfold exponent? at h
  split at h
  case h_3 =>
    cases h
    exact Nat.le_refl _
  all_goals
    have := length_lt_of_signed? h
    simp only [List.length_cons]
    omega

lemma length_lt_of_unsigned? {cs rest : List Char} {q : ℚ} (h : unsigned? cs = some (q, rest)) :
    rest.length < cs.length := by
  obtain ⟨⟨whole, cs₁⟩, hw, h⟩ := Option.bind_eq_some_iff.1 h
  obtain ⟨⟨fraction, cs₂⟩, hf, h⟩ := Option.bind_eq_some_iff.1 h
  obtain ⟨⟨exponent, cs₃⟩, he, h⟩ := Option.bind_eq_some_iff.1 h
  have first := length_lt_of_digits? (Option.filter_eq_some_iff.1 hw).1
  have second := length_le_of_fraction? hf
  have third := length_le_of_exponent? he
  obtain ⟨-, rfl⟩ := Prod.mk.inj (Option.some.inj h)
  omega

lemma length_lt_of_number? {cs rest : List Char} {q : ℚ} (h : number? cs = some (q, rest)) :
    rest.length < cs.length := by
  unfold number? at h
  split at h
  · obtain ⟨⟨p, rest⟩, hu, e⟩ := Option.map_eq_some_iff.1 h
    have := length_lt_of_unsigned? hu
    cases e
    simp only [List.length_cons]
    omega
  · exact length_lt_of_unsigned? h

lemma length_lt_of_string? {cs s rest : List Char} (h : string? cs = some (s, rest)) :
    rest.length < cs.length := by
  fun_induction string? cs generalizing s rest with
  | case1 => cases h
  | case2 cs =>
    cases h
    simp
  | case3 => cases h
  | case4 cs c mid he ih =>
    obtain ⟨⟨s', rest⟩, hs, e⟩ := Option.map_eq_some_iff.1 h
    cases e
    have first := length_lt_of_escape? he
    have second := ih hs
    simp only [List.length_cons]
    omega
  | case5 => cases h
  | case6 c cs _ _ _ ih =>
    obtain ⟨⟨s', rest⟩, hs, e⟩ := Option.map_eq_some_iff.1 h
    cases e
    exact (ih hs).trans (by simp)

lemma length_lt_of_token? {cs rest : List Char} {t : Token} (h : token? cs = some (t, rest)) :
    rest.length < cs.length := by
  unfold token? at h
  split at h
  case h_10 =>
    obtain ⟨⟨s, rest⟩, hs, e⟩ := Option.map_eq_some_iff.1 h
    have := length_lt_of_string? hs
    cases e
    simp only [List.length_cons]
    omega
  case h_11 =>
    obtain ⟨⟨q, rest⟩, hq, e⟩ := Option.map_eq_some_iff.1 h
    cases e
    exact length_lt_of_number? hq
  all_goals
    obtain ⟨-, rfl⟩ := Prod.mk.inj (Option.some.inj h)
    simp only [List.length_cons]
    omega

/-! ### Values -/

/-- An array or an object that is begun and not ended, with what it has so far, the last first. An
object waits for the value of a key. -/
inductive Frame where
  | array (items : List Value)
  | object (members : List (String × Value)) (key : String)

/-- What has to follow, within which arrays and objects, the innermost first. -/
inductive State where
  | value (frames : List Frame)
  | key (members : List (String × Value)) (frames : List Frame)
  | colon (members : List (String × Value)) (key : String) (frames : List Frame)
  | after (v : Value) (frames : List Frame)

/-- The state after a token. A bracket or a brace ends an array or an object only where it is empty
or where a value stands before it. -/
def State.next? : State → Token → Option State
  | value fs, .scalar v => some (after v fs)
  | value fs, .string s => some (after (.string s) fs)
  | value fs, .openBracket => some (value (.array [] :: fs))
  | value fs, .openBrace => some (key [] fs)
  | value (.array [] :: fs), .closeBracket => some (after (.array []) fs)
  | key [] fs, .closeBrace => some (after (.object []) fs)
  | key ms fs, .string k => some (colon ms k fs)
  | colon ms k fs, .colon => some (value (.object ms k :: fs))
  | after v (.array vs :: fs), .comma => some (value (.array (v :: vs) :: fs))
  | after v (.array vs :: fs), .closeBracket => some (after (.array (v :: vs).reverse) fs)
  | after v (.object ms k :: fs), .comma => some (key ((k, v) :: ms) fs)
  | after v (.object ms k :: fs), .closeBrace => some (after (.object ((k, v) :: ms).reverse) fs)
  | _, _ => none

/-- The value, once it is whole. -/
def State.result? : State → Option Value
  | after v [] => some v
  | _ => none

/-- Reads the rest of a text. -/
def run? (s : State) (cs : List Char) : Option Value :=
  if cs.dropWhile isBlank = [] then s.result?
  else match _h : token? (cs.dropWhile isBlank) with
    | none => none
    | some (t, rest) =>
      match s.next? t with
      | none => none
      | some s => run? s rest
  termination_by cs.length
  decreasing_by
    have := length_lt_of_token? _h
    have := (cs.dropWhile_suffix isBlank).length_le
    omega

lemma run?_eq (s : State) (cs : List Char) :
    run? s cs = if cs.dropWhile isBlank = [] then s.result?
      else (token? (cs.dropWhile isBlank)).bind fun (t, rest) =>
        (s.next? t).bind fun s => run? s rest := by
  rw [run?]
  congr 1
  split
  case h_1 none => rw [none, Option.bind_none]
  case h_2 some =>
    rw [some, Option.bind_some]
    dsimp only
    split
    case h_1 none => rw [none, Option.bind_none]
    case h_2 some => rw [some, Option.bind_some]

end Reader

/-- The value that a text denotes; none when it is not JSON. -/
def decode? (text : String) : Option Value :=
  Reader.run? (.value []) text.toList

end ScriptTyping.Json
