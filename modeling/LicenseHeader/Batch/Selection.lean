import LicenseHeader.Exclude.Exclusion
import LicenseHeader.File.Operations
import LicenseHeader.Repeats
import LicenseHeader.Report.Basic

/-!
# The files to process

Of the paths that a source lists those are processed that have a style, name a regular file and are
not excluded. `Selection.ofPaths` brings them into the order of their paths below the root, each
once, and reports the others that have a style.
-/

namespace LicenseHeader

namespace SkipReason

/-- Why a path is skipped for what it names, if it is. -/
def ofKind? (files : FileSystem) (path : Path) : Option SkipReason :=
  match files.lookAtLink path with
  | .ok (.file _ _) => none
  | .ok (.link _) => some .symlink
  | .ok .directory => some .notRegular
  | .error _ => some .missing

/-- Why a path is skipped, if it is: for what it names, or for its place. -/
def of? (files : FileSystem) (exclusion : Exclusion) (path : Path) : Option SkipReason :=
  (ofKind? files path).orElse fun _ => exclusion.verdict path

end SkipReason

/-- The files to process, and reports of the skipped ones. -/
structure Selection where
  /-- The files to process, in the order in which this happens. -/
  targets : List Candidate
  /-- The reports of skipped files, in the order in which they were listed. -/
  ignored : List Report
  deriving DecidableEq, Repr

namespace Selection

/-- Whether a candidate comes before another, or at the same place, below a root. -/
def placed (root : Path) (c d : Candidate) : Bool :=
  (c.path.belowOrSelf root).le (d.path.belowOrSelf root)

/-- The selection from the paths that a source lists. -/
def ofPaths (files : FileSystem) (exclusion : Exclusion) (paths : List Path) : Selection :=
  let candidates := paths.filterMap Candidate.ofPath?
  let accepted := candidates.filter fun c => (SkipReason.of? files exclusion c.path).isNone
  { targets := dropRepeats Candidate.same (accepted.mergeSort (placed exclusion.root))
    ignored := candidates.filterMap fun c =>
      (SkipReason.of? files exclusion c.path).map fun reason =>
        .because c .ignored reason.message }

end Selection

end LicenseHeader
