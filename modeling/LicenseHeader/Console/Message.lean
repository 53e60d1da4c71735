import LicenseHeader.Console.Colour
import LicenseHeader.Log.Filter

/-!
# Warnings

A warning that the log filter admits is one line: the word for its level, perhaps painted, and what
it says.
-/

namespace LicenseHeader

/-- How messages are logged. -/
structure MessageLog where
  /-- Which messages are logged. -/
  filter : List Log.Directive
  /-- Whether the words for levels are painted. -/
  painted : Bool
  deriving Repr

namespace MessageLog

/-- How a run logs: by the filter that the environment writes, or by the level for its flags. -/
def ofRun (written : Option String) (wishes : ColourWishes) (level : Log.Level) : MessageLog :=
  ⟨Log.filterFor written level, wishes.paintMessages⟩

/-- The word for warnings, as wide as the longest one for a level. -/
def label (log : MessageLog) : String := if log.painted then "\x1b[33m WARN\x1b[0m" else " WARN"

/-- The line for a warning about the processing of files, if it is logged. -/
def warning (log : MessageLog) (message : String) : List String :=
  if Log.admits log.filter Log.processing .warn then [log.label ++ " " ++ Log.escape message]
  else []

end MessageLog

end LicenseHeader
