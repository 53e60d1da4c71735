import LicenseHeader.Header.Comment
import LicenseHeader.Header.Preamble

/-!
# The normal form of a text

A text whose preamble is followed by the canonical header of its style is left alone. Any other text
is rebuilt from its preamble, the header and its body, where the body is what follows the preamble
without its leading comment and line breaks.
-/

namespace LicenseHeader

/-- The text after the preamble without its leading comment and the line breaks around it. -/
def bodyOf (style : Style) (afterPreamble : Text) : Text :=
  Text.dropBreaks (Comment.strip style afterPreamble).rest

/-- The text rebuilt around the canonical header, or nothing when it has to stay as it is. -/
def normalize (style : Style) (text : Text) : Option Text :=
  let parts := Preamble.split style text
  if style.header.isPrefixOf parts.2 then none
  else
    let rebuilt := parts.1.compose style.header (bodyOf style parts.2)
    if rebuilt = text then none else some rebuilt

end LicenseHeader
