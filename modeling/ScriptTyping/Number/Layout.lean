import ScriptTyping.Number.Shortest

/-!
# Numbers written out

Two ways to write a magnitude with its shortest digits: `plainText` never uses an exponent, and
`jsonText` does for very large and very small numbers.
-/

namespace ScriptTyping

namespace Decimal

/-- The digits as text. -/
def digitText (d : Decimal) : List Char :=
  Nat.toDigits 10 d.digits

/-- The number of digits before the point; negative or zero when zeros follow the point. -/
def pointAt (d : Decimal) : Int :=
  d.digitText.length + d.exponent

/-- The decimal without an exponent; `whole` is what follows an integer. -/
def positional (d : Decimal) (whole : String) : String :=
  let ds := d.digitText
  let p := d.pointAt
  if 0 ≤ d.exponent then
    String.ofList (ds ++ List.replicate d.exponent.toNat '0') ++ whole
  else if 0 < p then
    String.ofList (ds.take p.toNat ++ '.' :: ds.drop p.toNat)
  else
    String.ofList ('0' :: '.' :: (List.replicate (-p).toNat '0' ++ ds))

/-- The decimal with one digit before the point and a signed exponent. -/
def scientific (d : Decimal) : String :=
  let ds := d.digitText
  let e := d.pointAt - 1
  let fraction := ds.drop 1
  let mantissa := if fraction.isEmpty then ds else ds.take 1 ++ '.' :: fraction
  let sign := if 0 ≤ e then "+" else "-"
  String.ofList mantissa ++ "e" ++ sign ++ toString e.natAbs

end Decimal

namespace Magnitude

/-- The greatest integer up to which every integer is a magnitude of its own. -/
def greatestSafe : Nat := Nat.pow 2 53 - 1

/-- A magnitude without an exponent, however long; a tie of two shortest decimals goes up. -/
def plainText : Magnitude → String
  | finite m e => (shortest .up m e).positional ""
  | infinite => "inf"

/-- A magnitude in JSON: a safe integer as an integer, infinity as `null`, and any other number with
a point or an exponent. The exponent is used from `1e16` on and below `1e-5`; a tie of two shortest
decimals goes to the even one. -/
def jsonText : Magnitude → String
  | infinite => "null"
  | finite m e =>
    match toNat? (finite m e) with
    | some n => if n ≤ greatestSafe then toString n else inexact (shortest .toEven m e)
    | none => inexact (shortest .toEven m e)
where
  inexact (d : Decimal) : String :=
    if -4 ≤ d.pointAt ∧ d.pointAt ≤ 16 then d.positional ".0" else d.scientific

end Magnitude

end ScriptTyping
