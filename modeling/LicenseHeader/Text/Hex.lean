import LicenseHeader.Text.Line

/-!
# Hexadecimal digits

Numbers up to fifteen as characters. Both cases are read, lower case is written, and
`Text.hexValue?_hexDigit` says that what is written is read back.
-/

namespace LicenseHeader.Text

/-- The number that a hexadecimal digit stands for. -/
def hexValue? (c : Char) : Option Nat :=
  if '0' ≤ c && c ≤ '9' then some (c.toNat - 0x30)
  else if 'a' ≤ c && c ≤ 'f' then some (c.toNat - 0x57)
  else if 'A' ≤ c && c ≤ 'F' then some (c.toNat - 0x37)
  else none

/-- The hexadecimal digit of a number below sixteen. -/
def hexDigit (n : Nat) : Char := Char.ofNat (if n < 10 then 0x30 + n else 0x57 + n)

/-- A digit is read as the number that it was written for. -/
theorem hexValue?_hexDigit {n : Nat} (small : n < 16) : hexValue? (hexDigit n) = some n := by
  have every : ∀ digit : Fin 16, hexValue? (hexDigit digit) = some digit.val := by decide
  exact every ⟨n, small⟩

/-- The number that hexadecimal digits write; nothing if one of the characters is none. -/
def hexNumber? (digits : Text) : Option Nat :=
  (digits.mapM hexValue?).map fun values => values.foldl (fun number value => 16 * number + value) 0

end LicenseHeader.Text
