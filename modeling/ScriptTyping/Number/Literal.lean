import ScriptTyping.Number.Magnitude

/-!
# Number literals

The value of a number as a program writes it. Underscores between digits do not count. After `0x`,
`0o` or `0b` the digits are of base sixteen, eight or two, and must denote less than `2 ^ 64`; all
other literals are decimal, and their value is the nearest magnitude.
-/

namespace ScriptTyping.Literal

/-- The value of a digit, in bases up to sixteen. -/
def digitValue (c : Char) : Nat :=
  if c.isDigit then c.toNat - '0'.toNat
  else if 'a' ≤ c ∧ c ≤ 'f' then c.toNat - 'a'.toNat + 10
  else if 'A' ≤ c ∧ c ≤ 'F' then c.toNat - 'A'.toNat + 10
  else 0

/-- The value of digits in a base. -/
def digitsValue (base : Nat) (cs : List Char) : Nat :=
  cs.foldl (fun n c => n * base + digitValue c) 0

/-- The base that the beginning of a literal announces, and the digits after it. -/
def basePrefix? : List Char → Option (Nat × List Char)
  | '0' :: x :: cs =>
    if x = 'x' ∨ x = 'X' then some (16, cs)
    else if x = 'o' ∨ x = 'O' then some (8, cs)
    else if x = 'b' ∨ x = 'B' then some (2, cs)
    else none
  | _ => none

/-- Whether a character is a digit of a base. -/
def isDigitOf (base : Nat) (c : Char) : Bool :=
  (c.isDigit || ('a' ≤ c && c ≤ 'f') || ('A' ≤ c && c ≤ 'F')) && digitValue c < base

/-- The value of digits in a base; none when there are no digits, or others than those of the
base. -/
def digits? (base : Nat) (cs : List Char) : Option Nat :=
  if cs ≠ [] ∧ cs.all (isDigitOf base) then some (digitsValue base cs) else none

/-- Whether a character begins an exponent. -/
def isExponentMark (c : Char) : Bool :=
  c == 'e' || c == 'E'

/-- The value of an exponent with its mark and perhaps a sign; zero when it is left out. -/
def exponent? : List Char → Option Int
  | [] => some 0
  | _ :: '-' :: cs => (digits? 10 cs).map fun n => -(n : Int)
  | _ :: '+' :: cs => (digits? 10 cs).map fun n => (n : Int)
  | _ :: cs => (digits? 10 cs).map fun n => (n : Int)

/-- The magnitude of a decimal literal: digits with a point anywhere, and an exponent. -/
def decimal? (cs : List Char) : Option Magnitude :=
  let mantissa := cs.takeWhile (!isExponentMark ·)
  let whole := mantissa.takeWhile (· != '.')
  let fraction := (mantissa.dropWhile (· != '.')).drop 1
  (exponent? (cs.dropWhile (!isExponentMark ·))).bind fun exponent =>
    (digits? 10 (whole ++ fraction)).map fun n =>
      Magnitude.ofDecimal n (exponent - fraction.length)

/-- The value of a number literal; none when it is not made of digits, or when the digits after a
prefix denote too much. -/
def number? (raw : List Char) : Option Magnitude :=
  let cs := raw.filter (· != '_')
  match basePrefix? cs with
  | some (base, digits) =>
    (digits? base digits).bind fun n => if n < Nat.pow 2 64 then some (Magnitude.ofNat n) else none
  | none => decimal? cs

end ScriptTyping.Literal
