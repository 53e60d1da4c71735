import LicenseHeader.Candidate

/-!
# Reports

A report says what happened to one file, or what would happen when nothing is to be written.
`Groups.ofReports` sorts reports by what happened.
-/

namespace LicenseHeader

/-- What happened to a file. -/
inductive Action where
  /-- The header was written, or has to be. -/
  | updated
  /-- The header is there already. -/
  | unchanged
  /-- The file could not be read as text or not be written. -/
  | failed
  /-- The file was skipped. -/
  | ignored
  deriving DecidableEq, Repr

namespace Action

/-- The word for an action in reports. -/
def name : Action → String
  | updated => "updated"
  | unchanged => "unchanged"
  | failed => "failed"
  | ignored => "ignored"

/-- Every action. -/
def all : List Action := [updated, unchanged, failed, ignored]

/-- The action that a word names. -/
def ofName? (word : String) : Option Action := all.find? fun action => action.name == word

/-- An action is read back from its word. -/
theorem ofName?_name (action : Action) : ofName? action.name = some action := by
  cases action <;> decide

end Action

/-- What happened to one file. -/
structure Report where
  /-- The path of the file. -/
  path : Path
  /-- The style of its header, if it has one. -/
  style : Option Style
  /-- What happened. -/
  action : Action
  /-- Why the file failed or was skipped. -/
  reason : Option String
  deriving DecidableEq, Repr

namespace Report

/-- The report that a candidate had an outcome that needs no reason. -/
def plain (candidate : Candidate) (action : Action) : Report :=
  ⟨candidate.path, some candidate.style, action, none⟩

/-- The report that a candidate failed or was skipped. -/
def because (candidate : Candidate) (action : Action) (reason : String) : Report :=
  ⟨candidate.path, some candidate.style, action, some reason⟩

end Report

/-- Reports by what happened, each group in the order of paths. -/
structure Groups where
  /-- The files whose header was written or has to be. -/
  updated : List Report
  /-- The files that have the header already. -/
  unchanged : List Report
  /-- The files that could not be read as text or not be written. -/
  failed : List Report
  /-- The files that were skipped. -/
  ignored : List Report
  deriving DecidableEq, Repr

namespace Groups

/-- The reports of one action in the order of paths; reports of one path keep their order. -/
def group (reports : List Report) (action : Action) : List Report :=
  (reports.filter (·.action = action)).mergeSort fun a b => a.path.le b.path

/-- The groups of reports. -/
def ofReports (reports : List Report) : Groups where
  updated := group reports .updated
  unchanged := group reports .unchanged
  failed := group reports .failed
  ignored := group reports .ignored

end Groups

end LicenseHeader
