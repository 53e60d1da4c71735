import LicenseHeader.Text.Ascii
import LicenseHeader.Text.Line

/-!
# Whole numbers as text

Numbers that are written in decimal digits, perhaps after a plus sign, and numbers at the start of
bytes, which may have a sign and digits to another base.
-/

namespace LicenseHeader

/-- The number that decimal digits write, which may follow a plus sign. -/
def Text.number? (text : Text) : Option Nat :=
  let digits := match text with
    | '+' :: rest => rest
    | all => all
  if digits.isEmpty || !digits.all Char.isDigit then none
  else some (digits.foldl (fun n c => 10 * n + (c.toNat - '0'.toNat)) 0)

namespace Ascii

/-- The number that a byte stands for as a digit; one that is no digit stands for a large one. -/
def digitValue (b : UInt8) : Nat :=
  if isDigit b then b.toNat - 0x30
  else if isAlpha b then (lower b).toNat - 0x61 + 10
  else 36

/-- The base that the digits of a number say, and the digits: ten, eight after a zero or sixteen
after a zero and an `x`. -/
def impliedBase (text : Bytes) : Nat × Bytes :=
  if text.head? ≠ some (byte '0') then (10, text)
  else if 2 < text.length && text[1]?.map lower = some (byte 'x') then (16, text.drop 2)
  else (8, text)

/-- The number at the start of bytes and the bytes after it. White space and a sign may stand before
its digits, which are to the given base or to the one that they say. Numbers of 64 binary digits are
read. -/
def integer? (base : Option Nat) (text : Bytes) : Option (Int × Bytes) :=
  let signed := text.dropWhile isSpace
  let negative := signed.head? = some (byte '-')
  let body := if negative || signed.head? = some (byte '+') then signed.drop 1 else signed
  let (base, written) := match base with
    | some base => (base, body)
    | none => impliedBase body
  let digits := written.takeWhile fun b => digitValue b < base
  let size : Nat := digits.foldl (fun n b => base * n + digitValue b) 0
  let number : Int := if negative then -size else size
  if digits.isEmpty || number < -0x8000000000000000 || 0x8000000000000000 ≤ number then none
  else some (number, written.drop digits.length)

end Ascii

end LicenseHeader
