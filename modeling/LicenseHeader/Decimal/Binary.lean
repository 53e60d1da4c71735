/-!
# Binary fractions

Durations are reported as binary fractions with 53 digits. `Binary.ofRatio` rounds a quotient to the
nearest of them, and to the even one of two that are equally near; everything is computed with whole
numbers.
-/

namespace LicenseHeader

/-- The whole number nearest to a quotient; of two that are equally near, the even one. -/
def roundDiv (numerator denominator : Nat) : Nat :=
  let quotient := numerator / denominator
  let rest := numerator % denominator
  if 2 * rest < denominator then quotient
  else if denominator < 2 * rest then quotient + 1
  else quotient + quotient % 2

/-- What rounding a quotient changes is at most half a unit. -/
theorem roundDiv_near (numerator : Nat) {denominator : Nat} (positive : 0 < denominator) :
    2 * (roundDiv numerator denominator * denominator) ≤ 2 * numerator + denominator ∧
      2 * numerator ≤ 2 * (roundDiv numerator denominator * denominator) + denominator := by
  have rest := Nat.mod_lt numerator positive
  have whole := Nat.div_add_mod numerator denominator
  have swapped := Nat.mul_comm denominator (numerator / denominator)
  unfold roundDiv
  simp only
  split
  · omega
  · split
    · rw [Nat.add_mul]
      omega
    · obtain even | odd : numerator / denominator % 2 = 0 ∨ numerator / denominator % 2 = 1 := by
        omega
      · rw [even]
        simp only [Nat.add_zero]
        omega
      · rw [odd, Nat.add_mul]
        omega

/-- The non-negative number `mantissa * 2 ^ exponent`. -/
structure Binary where
  /-- The whole number in front. -/
  mantissa : Nat
  /-- The power of two. -/
  exponent : Int
  deriving DecidableEq, Repr

namespace Binary

/-- How many binary digits a mantissa has. -/
def digits : Nat := 53

/-- The numerator of a binary fraction written as a quotient. -/
def numerator (b : Binary) : Nat := b.mantissa * Nat.pow 2 b.exponent.toNat

/-- The denominator of a binary fraction written as a quotient. -/
def denominator (b : Binary) : Nat := Nat.pow 2 (-b.exponent).toNat

/-- The binary fraction nearest to a quotient. The first guess at the exponent makes the mantissa
lie between `2 ^ 52` and `2 ^ 54`; the exponent is one more when the mantissa has a digit too
many. -/
def ofRatio (numerator denominator : Nat) : Binary :=
  if numerator = 0 then ⟨0, 0⟩
  else
    let above (exponent : Int) : Nat := numerator * Nat.pow 2 (-exponent).toNat
    let below (exponent : Int) : Nat := denominator * Nat.pow 2 exponent.toNat
    let guess : Int := (numerator.log2 : Int) - denominator.log2 - digits
    let exponent := if above guess < Nat.pow 2 digits * below guess then guess else guess + 1
    ⟨roundDiv (above exponent) (below exponent), exponent⟩

/-- The binary fraction nearest to a sum. -/
def add (a b : Binary) : Binary :=
  ofRatio (a.numerator * b.denominator + b.numerator * a.denominator)
    (a.denominator * b.denominator)

end Binary

end LicenseHeader
