/-!
# Magnitudes of double precision

A number without a sign in the binary format of 64 bits: a significand times a power of two, or
infinity. `Magnitude.ofRatio` rounds an exact quotient to the nearest magnitude, a tie to the one
with the even significand; no inexact arithmetic takes part in it.
-/

namespace ScriptTyping

/-- A finite magnitude is `significand * 2 ^ exponent`. -/
inductive Magnitude where
  | finite (significand : Nat) (exponent : Int)
  | infinite
  deriving DecidableEq, Repr

namespace Magnitude

/-- The least exponent. -/
def leastExponent : Int := -1074

/-- The greatest exponent. -/
def greatestExponent : Int := 971

/-- The quotient rounded to the nearest integer, a tie to the even one. -/
def roundDiv (num den : Nat) : Nat :=
  let q := num / den
  let r := num % den
  if 2 * r < den then q
  else if den < 2 * r then q + 1
  else q + q % 2

/-- A quotient as a power of two brings it down or up: numerator and denominator of
`num / den / 2 ^ e`. -/
def scale (num den : Nat) (e : Int) : Nat × Nat :=
  if 0 ≤ e then (num, den * Nat.pow 2 e.toNat) else (num * Nat.pow 2 (-e).toNat, den)

/-- The exponent of the greatest power of two that is at most a positive quotient. -/
def log2Ratio (num den : Nat) : Int :=
  let guess : Int := (num.log2 : Int) - (den.log2 : Int)
  let (n, d) := scale num den guess
  if d ≤ n then guess else guess - 1

/-- The magnitude nearest to a quotient. -/
def ofRatio (num den : Nat) : Magnitude :=
  if num = 0 then
    finite 0 leastExponent
  else
    let e := max leastExponent (log2Ratio num den - 52)
    let (n, d) := scale num den e
    let m := roundDiv n d
    let (m, e) := if m = Nat.pow 2 53 then (Nat.pow 2 52, e + 1) else (m, e)
    if greatestExponent < e then infinite else finite m e

/-- The magnitude nearest to a natural number. -/
def ofNat (n : Nat) : Magnitude :=
  ofRatio n 1

/-- The number of decimal digits of a natural number; zero has none. -/
def decimalSize (n : Nat) : Nat :=
  if n = 0 then 0 else (Nat.toDigits 10 n).length

/-- The magnitude nearest to `digits * 10 ^ exponent`. Beyond the format's range the power of ten
is not computed. -/
def ofDecimal (digits : Nat) (exponent : Int) : Magnitude :=
  let size : Int := decimalSize digits
  if digits = 0 ∨ size + exponent < -330 then finite 0 leastExponent
  else if 310 < size + exponent then infinite
  else if 0 ≤ exponent then ofRatio (digits * Nat.pow 10 exponent.toNat) 1
  else ofRatio digits (Nat.pow 10 (-exponent).toNat)

/-- The value as a natural number, if it is one. -/
def toNat? : Magnitude → Option Nat
  | finite m e =>
    if 0 ≤ e then some (m * Nat.pow 2 e.toNat)
    else if m % Nat.pow 2 (-e).toNat = 0 then some (m / Nat.pow 2 (-e).toNat)
    else none
  | infinite => none

end Magnitude

end ScriptTyping
