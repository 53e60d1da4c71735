import LicenseHeader.Decimal.Shortest

/-!
# Elapsed time

The time that a run took, in whole nanoseconds, and the texts in which it is reported.
-/

namespace LicenseHeader

/-- A length of time. -/
structure Elapsed where
  /-- The time in nanoseconds. -/
  nanoseconds : Nat
  deriving DecidableEq, Repr

namespace Elapsed

/-- How many nanoseconds a second has. -/
def perSecond : Nat := 1000000000

/-- The time of whole seconds and further nanoseconds. -/
def ofParts (seconds nanoseconds : Nat) : Elapsed := ⟨seconds * perSecond + nanoseconds⟩

/-- The time in seconds: the whole seconds and the rest are rounded, and then their sum. -/
def seconds (time : Elapsed) : Binary :=
  (Binary.ofRatio (time.nanoseconds / perSecond) 1).add
    (Binary.ofRatio (time.nanoseconds % perSecond) perSecond)

end Elapsed

end LicenseHeader
