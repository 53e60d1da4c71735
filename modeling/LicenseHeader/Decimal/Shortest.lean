import LicenseHeader.Decimal.Binary

/-!
# Binary fractions in decimal digits

`Binary.shortest` finds the fewest decimal digits that lie nearer to a binary fraction than to any
other; of several such decimals it takes the nearest. `Binary.text` writes them with a decimal point
or an exponent, and `Binary.fixed` writes a number with two places.
-/

namespace LicenseHeader

/-- The number `significand * 10 ^ exponent`. -/
structure Decimal where
  /-- The digits as a whole number. -/
  significand : Nat
  /-- The power of ten. -/
  exponent : Int
  deriving DecidableEq, Repr

namespace Decimal

/-- The numerator of a decimal written as a quotient. -/
def numerator (d : Decimal) : Nat := d.significand * Nat.pow 10 d.exponent.toNat

/-- The denominator of a decimal written as a quotient. -/
def denominator (d : Decimal) : Nat := Nat.pow 10 (-d.exponent).toNat

/-- Whether a decimal is below a binary fraction. -/
def below (d : Decimal) (b : Binary) : Bool :=
  d.numerator * b.denominator < b.numerator * d.denominator

/-- Whether a decimal is above a binary fraction. -/
def above (d : Decimal) (b : Binary) : Bool :=
  b.numerator * d.denominator < d.numerator * b.denominator

/-- The decimal without zeros at the end of its significand, of which `fuel` can be taken off. -/
def dropZeros : Nat → Decimal → Decimal
  | 0, d => d
  | fuel + 1, d =>
    if d.significand % 10 = 0 then dropZeros fuel ⟨d.significand / 10, d.exponent + 1⟩ else d

/-- The text of a decimal without zeros at its end: with a point when this stands at most four
places before and sixteen places after the first digit, and with an exponent otherwise. -/
def text (d : Decimal) : String :=
  let figures := toString d.significand
  let point := figures.length + d.exponent
  if 0 < point && point ≤ 16 then
    if 0 ≤ d.exponent then figures ++ "".pushn '0' d.exponent.toNat ++ ".0"
    else
      String.ofList (figures.toList.take point.toNat) ++ "." ++
        String.ofList (figures.toList.drop point.toNat)
  else if -5 < point && point ≤ 0 then "0." ++ "".pushn '0' (-point).toNat ++ figures
  else
    let fraction :=
      if figures.length = 1 then "" else "." ++ String.ofList (figures.toList.drop 1)
    String.ofList (figures.toList.take 1) ++ fraction ++ "e" ++ toString (point - 1)

end Decimal

namespace Binary

/-- The lower end of the numbers that round to a binary fraction. Below a power of two the fractions
lie twice as close. -/
def lowerEnd (b : Binary) : Binary :=
  ⟨4 * b.mantissa - (if b.mantissa = Nat.pow 2 (digits - 1) then 1 else 2), b.exponent - 2⟩

/-- The upper end of the numbers that round to a binary fraction. -/
def upperEnd (b : Binary) : Binary := ⟨4 * b.mantissa + 2, b.exponent - 2⟩

/-- Whether a decimal rounds to a binary fraction; the ends do when the mantissa is even. -/
def accepts (b : Binary) (d : Decimal) : Bool :=
  if b.mantissa % 2 = 0 then !d.below b.lowerEnd && !d.above b.upperEnd
  else d.above b.lowerEnd && d.below b.upperEnd

/-- How many zeros follow the decimal point of a quotient below one, at most `fuel`. -/
def leadingZeros (denominator : Nat) : Nat → Nat → Nat
  | 0, _ => 0
  | fuel + 1, numerator =>
    if 10 * numerator < denominator then leadingZeros denominator fuel (10 * numerator) + 1 else 0

/-- How many places of a number stand before the decimal point; for a number below one, the zeros
after the point, taken negative. -/
def places (b : Binary) : Int :=
  let whole := b.numerator / b.denominator
  if whole = 0 then -(leadingZeros b.denominator b.denominator.log2 b.numerator : Int)
  else (toString whole).length

/-- The decimal nearest to a binary fraction among those that have no digit after the place of
`10 ^ exponent` and round to the fraction; of two that are equally near, the even one. -/
def nearest? (b : Binary) (exponent : Int) : Option Decimal :=
  let numerator := b.numerator * Nat.pow 10 (-exponent).toNat
  let denominator := b.denominator * Nat.pow 10 exponent.toNat
  let low : Decimal := ⟨numerator / denominator, exponent⟩
  let high : Decimal := ⟨low.significand + 1, exponent⟩
  let near : Decimal := ⟨roundDiv numerator denominator, exponent⟩
  if b.accepts near then some near
  else if b.accepts low then some low
  else if b.accepts high then some high
  else none

/-- The shortest decimal that rounds to a binary fraction. Seventeen digits always suffice. -/
def shortest (b : Binary) : Decimal :=
  let found := (List.range 17).findSome? fun count : Nat => b.nearest? (b.places - (count + 1))
  (found.getD ⟨0, 0⟩).dropZeros 17

/-- The text of a binary fraction: its shortest decimal. -/
def text (b : Binary) : String := if b.mantissa = 0 then "0.0" else b.shortest.text

/-- The text of a binary fraction with two decimal places. -/
def fixed (b : Binary) : String :=
  let hundredths := roundDiv (100 * b.numerator) b.denominator
  toString (hundredths / 100) ++ "." ++ toString (hundredths % 100 / 10) ++
    toString (hundredths % 10)

end Binary

end LicenseHeader
