import LicenseHeader.Header.Canonical

/-!
# What stays in front of the header

A byte order mark and, in the sharp style, the line that names an interpreter have to stay in front
of the header. `Preamble.split` takes them off a text and `Preamble.compose` builds a text around a
header.
-/

namespace LicenseHeader

/-- What a text has in front of its header. -/
structure Preamble where
  /-- Whether the text starts with a byte order mark. -/
  mark : Bool
  /-- The interpreter line with its terminator, or nothing. -/
  interpreter : Text
  deriving DecidableEq, Repr

namespace Preamble

/-- The byte order mark. -/
def byteOrderMark : Char := '\uFEFF'

/-- The text after a byte order mark, and whether there was one. -/
def splitMark : Text → Bool × Text
  | [] => (false, [])
  | c :: rest => if c = byteOrderMark then (true, rest) else (false, c :: rest)

/-- The interpreter line of a text and the text after it; only the sharp style has one. -/
def splitInterpreter (style : Style) (text : Text) : Text × Text :=
  if style = .sharp && "#!".toList.isPrefixOf text then Text.splitFirstLine text else ([], text)

/-- The preamble of a text and the text after it. -/
def split (style : Style) (text : Text) : Preamble × Text :=
  let marked := splitMark text
  let parts := splitInterpreter style marked.2
  (⟨marked.1, parts.1⟩, parts.2)

/-- A line with a terminator: one that ends with no line break gets a line feed. -/
def terminated (line : Text) : Text :=
  match line.getLast? with
  | none => line
  | some last => if Text.isBreak last then line else line ++ ['\n']

/-- The preamble as text; the interpreter line gets a terminator if it has none. -/
def text (preamble : Preamble) : Text :=
  (if preamble.mark then [byteOrderMark] else []) ++ terminated preamble.interpreter

/-- The text with the preamble, the header and the body, in this order. -/
def compose (preamble : Preamble) (header body : Text) : Text := preamble.text ++ header ++ body

end Preamble

end LicenseHeader
