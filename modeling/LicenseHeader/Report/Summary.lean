import LicenseHeader.Decimal.Elapsed
import LicenseHeader.Report.Basic

/-!
# Summaries

How many files had which outcome, and how long the run took.
-/

namespace LicenseHeader

/-- The counts of a run. -/
structure Summary where
  /-- How many files were reported. -/
  total : Nat
  /-- How many headers were written or have to be. -/
  updated : Nat
  /-- How many files have the header already. -/
  unchanged : Nat
  /-- How many files could not be read as text or not be written. -/
  failed : Nat
  /-- How many files were skipped. -/
  ignored : Nat
  /-- How long processing took. -/
  elapsed : Elapsed
  deriving DecidableEq, Repr

namespace Summary

/-- How many reports have an action. -/
def count (reports : List Report) (action : Action) : Nat := reports.countP (·.action = action)

/-- The summary of reports. -/
def ofReports (reports : List Report) (elapsed : Elapsed) : Summary where
  total := reports.length
  updated := count reports .updated
  unchanged := count reports .unchanged
  failed := count reports .failed
  ignored := count reports .ignored
  elapsed := elapsed

/-- Whether a file failed. -/
def hasFailures (summary : Summary) : Bool := 0 < summary.failed

end Summary

end LicenseHeader
