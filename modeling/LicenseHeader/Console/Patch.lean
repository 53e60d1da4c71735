import LicenseHeader.Console.Basic
import LicenseHeader.Patch.Hunk

/-!
# Patches in colour

The rows of a patch are painted by what they start with: added ones green, deleted ones red and the
heads of hunks cyan. The rows that name the file are left as they are.
-/

namespace LicenseHeader.Console

/-- The paint of a row of a patch, if it has one. -/
def rowPaint? (row : Text) : Option Paint :=
  if "+".toList.isPrefixOf row && !"+++".toList.isPrefixOf row then some .green
  else if "-".toList.isPrefixOf row && !"---".toList.isPrefixOf row then some .red
  else if "@@".toList.isPrefixOf row then some .cyan
  else none

/-- A row of a patch, painted. -/
def patchRow (console : Console) (row : Text) : String :=
  match rowPaint? row with
  | some paint => console.paint paint (String.ofList row)
  | none => String.ofList row

/-- The rows of a patch, painted. -/
def patchRows (console : Console) (patch : Text) : List String :=
  (Text.rows patch).map console.patchRow

end LicenseHeader.Console
