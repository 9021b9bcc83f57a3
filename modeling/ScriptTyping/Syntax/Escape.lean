/-!
# Escapes in strings

`unescape` gives the text that the characters between the quotes of a string stand for. A backslash
at the end of a line joins two lines. A numeric escape that names no character stands for itself.
-/

namespace ScriptTyping.Syntax

/-- The value of a hexadecimal digit in either case. -/
def hexValue? (c : Char) : Option Nat :=
  if '0' ≤ c ∧ c ≤ '9' then some (c.toNat - '0'.toNat)
  else if 'a' ≤ c ∧ c ≤ 'f' then some (c.toNat - 'a'.toNat + 10)
  else if 'A' ≤ c ∧ c ≤ 'F' then some (c.toNat - 'A'.toNat + 10)
  else none

/-- The value of hexadecimal digits, continuing from `n`. -/
def hexValues? (n : Nat) : List Char → Option Nat
  | [] => some n
  | c :: cs => (hexValue? c).bind fun d => hexValues? (16 * n + d) cs

/-- The value of at least one hexadecimal digit, perhaps after a plus sign. -/
def hexNumber? (cs : List Char) : Option Nat :=
  match if cs.head? = some '+' then cs.tail else cs with
  | [] => none
  | digits => hexValues? 0 digits

/-- The character of a code point. -/
def charOf? (n : Nat) : Option Char :=
  if h : n.isValidChar then some (Char.ofNatAux n h) else none

/-- What a numeric escape stands for, given its letter and its digits. -/
def numericEscape (letter : Char) (hex : List Char) : List Char :=
  match (hexNumber? hex).bind charOf? with
  | some c => [c]
  | none => '\\' :: letter :: hex

/-- The digits of an escape by code unit or, in braces, by code point, and what is left after
them. -/
def unicodeDigits : List Char → List Char × List Char
  | '\x7b' :: cs => (cs.takeWhile (· != '\x7d'), (cs.dropWhile (· != '\x7d')).tail)
  | cs => (cs.take 4, cs.drop 4)

theorem length_unicodeDigits_le (cs : List Char) :
    (unicodeDigits cs).2.length ≤ cs.length := by
  unfold unicodeDigits
  split
  · rename_i cs
    have := (List.dropWhile_suffix (l := cs) (· != '\x7d')).length_le
    simp only [List.length_tail, List.length_cons]
    omega
  · simp

/-- The character that a one-letter escape stands for: a control character, or the letter
itself. -/
def letterEscape (c : Char) : Char :=
  match c with
  | 'n' => '\n'
  | 't' => '\t'
  | 'r' => '\r'
  | 'b' => '\x08'
  | 'f' => '\x0c'
  | 'v' => '\x0b'
  | '0' => '\x00'
  | c => c

/-- The text that the characters between two quotes stand for. -/
def unescape : List Char → List Char
  | [] => []
  | ['\\'] => []
  | '\\' :: '\n' :: cs => unescape cs
  | '\\' :: '\r' :: '\n' :: cs => unescape cs
  | '\\' :: '\r' :: cs => unescape cs
  | '\\' :: 'x' :: cs => numericEscape 'x' (cs.take 2) ++ unescape (cs.drop 2)
  | '\\' :: 'u' :: cs =>
    numericEscape 'u' (unicodeDigits cs).1 ++ unescape (unicodeDigits cs).2
  | '\\' :: c :: cs => letterEscape c :: unescape cs
  | c :: cs => c :: unescape cs
  termination_by cs => cs.length
  decreasing_by
    all_goals
      simp only [List.length_cons, List.length_drop]
      try have := length_unicodeDigits_le cs
      omega

end ScriptTyping.Syntax
