import LicenseHeader.Batch.Apply
import LicenseHeader.Batch.PatchOutput
import LicenseHeader.Batch.Selection

/-!
# Processing many files

Files are processed one after the other. What goes wrong with one is reported and does not keep the
others from being processed. When nothing is to be written, the files are only read, and their
patches go where the output for patches says.
-/

namespace LicenseHeader

/-- What is told while files are processed. -/
inductive Notice where
  /-- Something went wrong with one file. -/
  | warning (message : String)
  /-- The patch of one file. -/
  | patch (text : Text)
  deriving DecidableEq, Repr

/-- How files are processed. -/
structure Batch where
  /-- The root of the workspace. -/
  root : Path
  /-- Whether nothing is written to the files. -/
  checkOnly : Bool
  /-- Where patches go, if anywhere. -/
  patches : Option PatchOutput
  deriving Repr

/-- What processing one file did. -/
structure FileOutcome where
  /-- The files. -/
  files : FileSystem
  /-- What was told, in order. -/
  notices : List Notice
  /-- Whether the header was written or has to be. -/
  result : Except ApplyError Bool

/-- What processing several files did. -/
structure BatchOutcome where
  /-- The files. -/
  files : FileSystem
  /-- What was told, in order. -/
  notices : List Notice
  /-- The reports, in the order of the files. -/
  reports : List Report

namespace Batch

/-- The patch of a file sent where patches go. A patch that cannot be saved is warned of. -/
def sendPatch (batch : Batch) (device : Device) (files : FileSystem) (path : Path)
    (old new : Text) : FileSystem × List Notice :=
  match batch.patches with
  | none => (files, [])
  | some output =>
    let patch := PatchOutput.render (path.belowOrSelf batch.root) old new
    let told := if output.shown then [Notice.patch patch] else []
    let saving := output.record device files patch
    let warning (failure : Failure) : Notice :=
      .warning ("Failed to record diff for " ++ path.display ++ ": " ++ failure.message)
    (saving.files, told ++ (saving.failure.map warning).toList)

/-- A file checked. -/
def checkFile (batch : Batch) (device : Device) (files : FileSystem) (candidate : Candidate) :
    FileOutcome :=
  match files.readText device candidate.path with
  | .error error => ⟨files, [], .error error⟩
  | .ok text =>
    match normalize candidate.style text with
    | none => ⟨files, [], .ok false⟩
    | some new =>
      let sent := batch.sendPatch device files candidate.path text new
      ⟨sent.1, sent.2, .ok true⟩

/-- A file processed. -/
def processFile (batch : Batch) (device : Device) (files : FileSystem) (candidate : Candidate) :
    FileOutcome :=
  if batch.checkOnly then batch.checkFile device files candidate
  else
    let applied := files.applyHeader device candidate.path candidate.style
    ⟨applied.1, [], applied.2⟩

/-- The report of a file that was processed. -/
def reportOf (candidate : Candidate) : Except ApplyError Bool → Report
  | .ok true => .plain candidate .updated
  | .ok false => .plain candidate .unchanged
  | .error error => .because candidate .failed error.reason

/-- What is told about a file that could not be processed. -/
def complaint : Except ApplyError Bool → List Notice
  | .ok _ => []
  | .error error => [.warning ("Skipping (" ++ error.reason ++ "): " ++ error.message)]

/-- Files processed in order. -/
def process (batch : Batch) (device : Device) (files : FileSystem) : List Candidate → BatchOutcome
  | [] => ⟨files, [], []⟩
  | candidate :: more =>
    let first := batch.processFile device files candidate
    let rest := batch.process device first.files more
    { files := rest.files
      notices := first.notices ++ complaint first.result ++ rest.notices
      reports := reportOf candidate first.result :: rest.reports }

/-- A selection processed: its targets in order, with the reports of skipped files in front. -/
def processSelection (batch : Batch) (device : Device) (files : FileSystem)
    (selection : Selection) : BatchOutcome :=
  let done := batch.process device files selection.targets
  { done with reports := selection.ignored ++ done.reports }

end Batch

end LicenseHeader
