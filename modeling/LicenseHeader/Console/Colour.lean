import LicenseHeader.Text.Number

/-!
# Colours

When a run prints in colour, as far as its arguments and its environment say so, and the codes that
turn a paint on and off.
-/

namespace LicenseHeader

/-- When to print in colour. -/
inductive ColourMode where
  /-- When the output is a terminal. -/
  | auto
  /-- Never. -/
  | never
  /-- Always. -/
  | always
  deriving DecidableEq, Repr

namespace ColourMode

/-- The word for a mode. -/
def name : ColourMode → String
  | auto => "auto"
  | never => "never"
  | always => "always"

/-- The mode that a word names. -/
def ofName? (word : String) : Option ColourMode :=
  [auto, never, always].find? fun mode => mode.name == word

end ColourMode

/-- What the environment says about colours. -/
structure ColourWishes where
  /-- Words for no colours; empty ones say nothing about messages that are logged. -/
  plain : Option String
  /-- A number of colours that are wished for, or a word for it. -/
  forced : Option String
  /-- Another way to wish for colours. -/
  alsoForced : Option String
  deriving DecidableEq, Repr

namespace ColourWishes

/-- Whether colours are wished for even where the output is no terminal. -/
def force (wishes : ColourWishes) : Bool :=
  match wishes.forced, wishes.alsoForced with
  | some word, _ => word ≠ "false" && Text.number? word.toList ≠ some 0
  | none, some word => word ≠ "0"
  | none, none => false

/-- Whether messages that are logged are painted. -/
def paintMessages (wishes : ColourWishes) : Bool := wishes.plain.getD "" = ""

end ColourWishes

/-- Whether an output that is no terminal is painted. -/
def ColourMode.paints (mode : ColourMode) (wishes : ColourWishes) : Bool :=
  mode = .always || (mode = .auto && wishes.force)

/-- A way to paint a text. -/
inductive Paint where
  /-- Red. -/
  | red
  /-- Green. -/
  | green
  /-- Yellow. -/
  | yellow
  /-- Cyan. -/
  | cyan
  /-- Less bright. -/
  | dimmed
  deriving DecidableEq, Repr

namespace Paint

/-- The number that turns a paint on. -/
def onCode : Paint → String
  | red => "31"
  | green => "32"
  | yellow => "33"
  | cyan => "36"
  | dimmed => "2"

/-- The number that turns a paint off. -/
def offCode : Paint → String
  | dimmed => "0"
  | _ => "39"

end Paint

end LicenseHeader
