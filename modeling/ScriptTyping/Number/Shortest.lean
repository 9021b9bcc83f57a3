import ScriptTyping.Number.Magnitude

/-!
# The shortest decimal of a magnitude

Of the decimals that round to a given magnitude `shortest` is one with the fewest digits, and of
those the nearest. For one digit, two digits and so on it tries the two decimals of that many
digits next to the value. Two that are equally near are a tie, which a `Tie` decides.
-/

namespace ScriptTyping

/-- The decimal `digits * 10 ^ exponent`. -/
structure Decimal where
  digits : Nat
  exponent : Int
  deriving DecidableEq, Repr

/-- Which of two neighbours is taken for a value halfway between them: the one with the even last
digit, or the greater one. -/
inductive Tie where
  | toEven
  | up
  deriving DecidableEq, Repr

/-- Whether a tie between `q` and `q + 1` goes to `q`. -/
def Tie.takesLow : Tie → (q : Nat) → Bool
  | toEven, q => q % 2 == 0
  | up, _ => false

namespace Magnitude

/-- The numbers that round to a magnitude lie between `(4 * significand - below) / 4` and
`(4 * significand + 2) / 4` units of its last place; the lower margin is `2`, or `1` where the
magnitudes below lie closer. -/
def marginBelow (m : Nat) (e : Int) : Nat :=
  if m = Nat.pow 2 52 ∧ leastExponent < e then 1 else 2

/-- Whether `d * 10 ^ t` rounds to `m * 2 ^ e`; the ends of the interval do when `m` is even. -/
def roundsTo (m : Nat) (e : Int) (d : Nat) (t : Int) : Bool :=
  -- both sides in units of `2 ^ (e - 2)`, over the common denominator
  let tens := if 0 ≤ t then d * Nat.pow 10 t.toNat else d
  let den := if 0 ≤ t then 1 else Nat.pow 10 (-t).toNat
  let (n, s) := scale tens den (e - 2)
  let low := (4 * m - marginBelow m e) * s
  let high := (4 * m + 2) * s
  if m % 2 = 0 then low ≤ n && n ≤ high else low < n && n < high

/-- The quotient of `m * 2 ^ e` by `10 ^ t`, as numerator and denominator. -/
def overTens (m : Nat) (e : Int) (t : Int) : Nat × Nat :=
  let (n, d) := scale m 1 (-e)
  if 0 ≤ t then (n, d * Nat.pow 10 t.toNat) else (n * Nat.pow 10 (-t).toNat, d)

/-- The exponent of the greatest power of ten that is at most a positive value, from a guess that
is at most three too high or too low. -/
def log10 (m : Nat) (e : Int) : Int :=
  let guess : Int := ((m.log2 : Int) + e) * 30103 / 100000
  let atMost (t : Int) : Bool := let (n, d) := overTens m e t; d ≤ n
  let candidates : List Int := [guess + 2, guess + 1, guess, guess - 1, guess - 2]
  (candidates.find? atMost).getD (guess - 3)

/-- The better of the two decimals with the unit `10 ^ t` next to a value, if either rounds to it:
the nearer, and of two equally near the one that `tie` takes. -/
def nearest? (tie : Tie) (m : Nat) (e : Int) (t : Int) : Option Nat :=
  let (n, d) := overTens m e t
  let q := n / d
  let r := n % d
  let preferLow := 2 * r < d ∨ (2 * r = d ∧ tie.takesLow q)
  let (first, second) := if preferLow then (q, q + 1) else (q + 1, q)
  if roundsTo m e first t then some first
  else if roundsTo m e second t then some second
  else none

/-- Tries ever finer units, `left` more of them. With the last unit the decimal above the value is
taken if neither of its neighbours rounds to it. -/
def search (tie : Tie) (m : Nat) (e : Int) : (left : Nat) → (t : Int) → Decimal
  | 0, t =>
    let (n, d) := overTens m e t
    { digits := (nearest? tie m e t).getD (n / d + 1), exponent := t }
  | left + 1, t =>
    match nearest? tie m e t with
    | some d => { digits := d, exponent := t }
    | none => search tie m e left (t - 1)

end Magnitude

/-- A decimal without zeros at its end; at most `left` of them are taken off. -/
def Decimal.strip : (left : Nat) → Decimal → Decimal
  | 0, d => d
  | left + 1, d =>
    if d.digits ≠ 0 ∧ d.digits % 10 = 0 then
      strip left { digits := d.digits / 10, exponent := d.exponent + 1 }
    else
      d

/-- A decimal with the fewest digits that rounds to `m * 2 ^ e`. Seventeen digits are always
enough. -/
def Magnitude.shortest (tie : Tie) (m : Nat) (e : Int) : Decimal :=
  if m = 0 then { digits := 0, exponent := 0 }
  else (Magnitude.search tie m e 17 (Magnitude.log10 m e)).strip 20

end ScriptTyping
