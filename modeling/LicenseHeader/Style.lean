import LicenseHeader.Text.Line

/-!
# Comment styles of source files

A file belongs to a comment style by its name: the first rule of `Style.suffixes` whose suffix ends
the lower-cased name decides, and a name that no rule matches has no style.
-/

namespace LicenseHeader

/-- The comment syntax of a source file. -/
inductive Style where
  /-- Comments between slash-star and star-slash, or runs of lines that start with two slashes. -/
  | block
  /-- Runs of lines that start with a number sign, or a triple-quoted string. -/
  | sharp
  deriving DecidableEq, Repr

namespace Style

/-- The word for a style in reports. -/
def name : Style → String
  | block => "block"
  | sharp => "sharp"

/-- Every style. -/
def all : List Style := [block, sharp]

/-- The style that a word names. -/
def ofName? (word : String) : Option Style := all.find? fun style => style.name == word

/-- A style is read back from its word. -/
theorem ofName?_name (style : Style) : ofName? style.name = some style := by
  cases style <;> decide

/-- The lower case of one character, as far as text in ASCII can tell: beside the ASCII letters only
the Kelvin sign and the capital I with a dot have lower cases with ASCII letters in them, and every
other character keeps clear of ASCII. -/
def lowerChar (c : Char) : Text :=
  if c = '\u212A' then ['k'] else if c = '\u0130' then ['i', '\u0307'] else [c.toLower]

/-- The lower case of a name, as far as text in ASCII can tell. -/
def lower (name : Text) : Text := name.flatMap lowerChar

/-- The rules that give names their styles, in the order in which they are tried; the suffixes are
in lower case. -/
def suffixes : List (String × Style) :=
  [(".h.in", block), (".tsx", block), (".ts", block), (".c", block), (".h", block), (".rs", block),
    (".py", sharp), (".cmake", sharp), ("cmakelists.txt", sharp), (".typed", sharp)]

/-- The style of a file with the given name: that of the first rule whose suffix ends the name. -/
def ofFileName? (name : Text) : Option Style :=
  (suffixes.find? fun rule => rule.1.toList.isSuffixOf (lower name)).map (·.2)

end Style

end LicenseHeader
