import LicenseHeader.Style
import LicenseHeader.Path.Relative

/-!
# Candidates

A candidate is a path together with the comment style that its file name gives it.
-/

namespace LicenseHeader

/-- The style of the file that a path names: that of its last component, when this is a name and
text. -/
def Style.ofPath? (path : Path) : Option Style := do
  let name ← path.fileName?
  let text ← (Utf8.decode name).toOption
  ofFileName? text

/-- A path to process and the style of its header. -/
structure Candidate where
  /-- The path. -/
  path : Path
  /-- The style of its header. -/
  style : Style
  deriving DecidableEq, Repr

namespace Candidate

/-- The candidate that a path is, if its name has a style. -/
def ofPath? (path : Path) : Option Candidate := (Style.ofPath? path).map (⟨path, ·⟩)

/-- Whether two candidates are the same path with the same style. -/
def same (c d : Candidate) : Bool := c.path.same d.path && c.style = d.style

end Candidate

end LicenseHeader
