import LicenseHeader.Exclude.Pattern
import LicenseHeader.Path.Relative

/-!
# Excluded paths

An exclusion is a directory and patterns for paths below it. `Exclusion.verdict` says why a path is
skipped, or nothing when it is not; in a list of exclusions the first one that skips a path says
why.
-/

namespace LicenseHeader

/-- Why a path is not processed. -/
inductive SkipReason where
  /-- The path is a symbolic link. -/
  | symlink
  /-- The path is there and neither a link nor a regular file. -/
  | notRegular
  /-- Nothing is there that can be looked at. -/
  | missing
  /-- The path matches the exclude pattern with the given text. -/
  | excluded (pattern : String)
  deriving DecidableEq, Repr

/-- The reason in words. -/
def SkipReason.message : SkipReason → String
  | symlink => "Symlink"
  | notRegular => "Not a regular file"
  | missing => "File does not exist"
  | excluded pattern => "Matches exclude pattern: " ++ pattern

/-- An exclude pattern that is none: its text, and what is wrong with it. -/
structure ExcludeError where
  /-- The text of the pattern. -/
  pattern : String
  /-- Where and why it is none. -/
  cause : PatternError
  deriving DecidableEq, Repr

/-- The error in words, without its cause. -/
def ExcludeError.message (error : ExcludeError) : String :=
  "Invalid exclude pattern: " ++ error.pattern

/-- Patterns for the paths below a directory. -/
structure Exclusion where
  /-- The directory that paths are taken relative to. -/
  root : Path
  /-- The patterns, in the order in which they are tried. -/
  patterns : List Pattern
  deriving DecidableEq, Repr

namespace Exclusion

/-- The patterns that texts write, or the first text that writes none. -/
def parsePatterns : List String → Except ExcludeError (List Pattern)
  | [] => .ok []
  | source :: more =>
    match Pattern.parse source with
    | .error cause => .error ⟨source, cause⟩
    | .ok pattern => (parsePatterns more).map (pattern :: ·)

/-- The exclusion of the patterns below a directory. -/
def ofSources (root : Path) (sources : List String) : Except ExcludeError Exclusion :=
  (parsePatterns sources).map (⟨root, ·⟩)

/-- Whether a pattern matches a path. A path that is not text matches nothing. -/
def matchesPath (pattern : Pattern) (path : Path) : Bool :=
  match Utf8.decode path.bytes with
  | .ok text => pattern.matchesText text
  | .error _ => false

/-- Why a path is excluded, if it is: the first pattern that matches what is left of the path below
the root, or the path as it is when it lies elsewhere. -/
def verdict (exclusion : Exclusion) (path : Path) : Option SkipReason :=
  (exclusion.patterns.find? (matchesPath · (path.belowOrSelf exclusion.root))).map
    (.excluded ·.source)

/-- The verdict of the first exclusion that skips a path. -/
def firstVerdict (exclusions : List Exclusion) (path : Path) : Option SkipReason :=
  exclusions.findSome? (·.verdict path)

end Exclusion

end LicenseHeader
