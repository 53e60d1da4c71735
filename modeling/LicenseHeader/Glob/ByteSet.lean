import LicenseHeader.Text.Utf8

/-!
# Sets of bytes

A set of bytes is a number whose binary digits say which bytes are in it, so that looking a byte up
takes one step. `ByteSet.contains_single` and `ByteSet.contains_ofPredicate` say what is in the sets
that are built here.
-/

namespace LicenseHeader

/-- A set of bytes. -/
structure ByteSet where
  /-- The number whose binary digit at the place of a byte says whether the byte is in the set. -/
  digits : Nat
  deriving DecidableEq, Repr

namespace ByteSet

/-- Whether a byte is in the set. -/
def contains (set : ByteSet) (byte : UInt8) : Bool := set.digits.testBit byte.toNat

/-- The set with nothing in it. -/
def empty : ByteSet := ⟨0⟩

/-- The set of one byte. -/
def single (byte : UInt8) : ByteSet := ⟨Nat.pow 2 byte.toNat⟩

/-- What is in one of two sets. -/
def union (left right : ByteSet) : ByteSet := ⟨left.digits ||| right.digits⟩

/-- The number whose digits up to a place are those that a predicate asks for. -/
def digitsBelow (holds : UInt8 → Bool) : Nat → Nat
  | 0 => 0
  | n + 1 =>
    digitsBelow holds n ||| if holds (UInt8.ofNat n) then Nat.pow 2 n else 0

/-- The bytes with a property. -/
def ofPredicate (holds : UInt8 → Bool) : ByteSet := ⟨digitsBelow holds 256⟩

/-- Nothing is in the empty set. -/
@[simp]
theorem contains_empty (byte : UInt8) : empty.contains byte = false := by
  simp [contains, empty]

/-- A set of one byte holds this byte and no other. -/
@[simp]
theorem contains_single (byte other : UInt8) :
    (single byte).contains other = decide (byte = other) := by
  simp [contains, single, Nat.testBit_two_pow, UInt8.toNat_inj]

/-- A byte is in a union when it is in one of the sets. -/
@[simp]
theorem contains_union (left right : ByteSet) (byte : UInt8) :
    (left.union right).contains byte = (left.contains byte || right.contains byte) := by
  simp [contains, union, Nat.testBit_or]

/-- A digit is set below a place when it is below the place and the predicate asks for it. -/
theorem testBit_digitsBelow (holds : UInt8 → Bool) (n place : Nat) :
    (digitsBelow holds n).testBit place = (decide (place < n) && holds (UInt8.ofNat place)) := by
  induction n with
  | zero => simp [digitsBelow]
  | succ n ih =>
    simp only [digitsBelow, Nat.testBit_or, ih]
    by_cases last : place = n
    · subst last
      by_cases asked : holds (UInt8.ofNat place) <;> simp [asked]
    · have smaller : place < n + 1 ↔ place < n := by omega
      by_cases asked : holds (UInt8.ofNat n) <;>
        simp [asked, Ne.symm last, smaller]

/-- The bytes with a property are the ones that have it. -/
@[simp]
theorem contains_ofPredicate (holds : UInt8 → Bool) (byte : UInt8) :
    (ofPredicate holds).contains byte = holds byte := by
  have small := byte.toNat_lt
  simp only [contains, ofPredicate, testBit_digitsBelow, UInt8.ofNat_toNat]
  simp [small]

end ByteSet

end LicenseHeader
