import LicenseHeader.Text.Line

/-!
# Blank characters

The characters with the Unicode property White_Space. A line is blank when it holds nothing else;
the terminators of lines are blank themselves.
-/

namespace LicenseHeader.Text

/-- The code points with the Unicode property White_Space, as inclusive ranges. -/
def blankRanges : List (Nat × Nat) :=
  [(0x09, 0x0D), (0x20, 0x20), (0x85, 0x85), (0xA0, 0xA0), (0x1680, 0x1680), (0x2000, 0x200A),
    (0x2028, 0x2029), (0x202F, 0x202F), (0x205F, 0x205F), (0x3000, 0x3000)]

/-- Whether a character is white space. -/
def isBlank (c : Char) : Bool :=
  blankRanges.any fun range => range.1 ≤ c.toNat && c.toNat ≤ range.2

/-- The text without the white space it starts with. -/
def dropBlanks (text : Text) : Text := text.dropWhile isBlank

/-- A line break is white space. -/
theorem isBlank_of_isBreak {c : Char} (breaks : isBreak c = true) : isBlank c = true := by
  have either : c = '\n' ∨ c = '\r' := by simpa [isBreak] using breaks
  obtain rfl | rfl := either <;> decide

/-- Everything that core counts as white space is white space here. -/
theorem isBlank_of_isWhitespace {c : Char} (white : c.isWhitespace = true) : isBlank c = true := by
  have cases : ((c = ' ' ∨ c = '\t') ∨ c = '\r') ∨ c = '\n' := by
    simpa [Char.isWhitespace] using white
  obtain ((rfl | rfl) | rfl) | rfl := cases <;> decide

end LicenseHeader.Text
