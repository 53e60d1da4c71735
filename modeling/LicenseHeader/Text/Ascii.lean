import LicenseHeader.Text.Utf8

/-!
# ASCII characters as bytes

Classes and cases of the bytes that are ASCII characters. A byte above them is in no class and has
no case. `Ascii.lower_upper` and `Ascii.isUpper_lower` say how case and class go together.
-/

namespace LicenseHeader.Ascii

/-- The byte of an ASCII character. -/
def byte (c : Char) : UInt8 := UInt8.ofNat c.toNat

/-- The bytes of a text. -/
def bytes (text : String) : Bytes := Utf8.encode text.toList

/-- Whether a byte is a capital letter. -/
def isUpper (b : UInt8) : Bool := 0x41 ≤ b && b ≤ 0x5A

/-- Whether a byte is a small letter. -/
def isLower (b : UInt8) : Bool := 0x61 ≤ b && b ≤ 0x7A

/-- Whether a byte is a letter. -/
def isAlpha (b : UInt8) : Bool := isUpper b || isLower b

/-- Whether a byte is a decimal digit. -/
def isDigit (b : UInt8) : Bool := 0x30 ≤ b && b ≤ 0x39

/-- Whether a byte is a letter or a digit. -/
def isAlphanumeric (b : UInt8) : Bool := isAlpha b || isDigit b

/-- Whether a byte is a hexadecimal digit. -/
def isHexDigit (b : UInt8) : Bool :=
  isDigit b || (0x41 ≤ b && b ≤ 0x46) || (0x61 ≤ b && b ≤ 0x66)

/-- Whether a byte is white space: a blank, or one of the controls from tab to carriage return. -/
def isSpace (b : UInt8) : Bool := b = 0x20 || (0x09 ≤ b && b ≤ 0x0D)

/-- The small letter for a capital one; any other byte as it is. -/
def lower (b : UInt8) : UInt8 := if isUpper b then b + 0x20 else b

/-- The capital letter for a small one; any other byte as it is. -/
def upper (b : UInt8) : UInt8 := if isLower b then b - 0x20 else b

/-- The bytes with small letters for capital ones. -/
def lowered (text : Bytes) : Bytes := text.map lower

/-- The bytes without the white space at their end. -/
def dropSpacesEnd (text : Bytes) : Bytes := (text.reverse.dropWhile isSpace).reverse

/-- The small letter of the capital letter of a small letter is this letter. -/
theorem lower_upper {b : UInt8} (small : isLower b = true) : lower (upper b) = b := by
  have between : 0x61 ≤ b.toNat ∧ b.toNat ≤ 0x7A := by
    simpa [isLower, UInt8.le_iff_toNat_le] using small
  have capital : (b - 0x20).toNat = b.toNat - 0x20 := by
    rw [UInt8.toNat_sub_of_le _ _ (by simp [UInt8.le_iff_toNat_le]; omega)]
    rfl
  have found : isUpper (b - 0x20) = true := by
    simp only [isUpper, UInt8.le_iff_toNat_le, capital, Bool.and_eq_true, decide_eq_true_eq,
      UInt8.reduceToNat]
    omega
  simp [upper, small, lower, found]

/-- No capital letter is left among small letters. -/
theorem isUpper_lower (b : UInt8) : isUpper (lower b) = false := by
  unfold lower
  split
  · rename_i capital
    have between : 0x41 ≤ b.toNat ∧ b.toNat ≤ 0x5A := by
      simpa [isUpper, UInt8.le_iff_toNat_le] using capital
    have small : (b + 0x20).toNat = b.toNat + 0x20 := by
      rw [UInt8.toNat_add]
      simp only [UInt8.reduceToNat]
      omega
    simp only [isUpper, UInt8.le_iff_toNat_le, small, UInt8.reduceToNat]
    simp only [Bool.and_eq_false_iff, decide_eq_false_iff_not]
    omega
  · rename_i other
    simpa using other

end LicenseHeader.Ascii
