import LicenseHeader.Console.Colour
import LicenseHeader.Report.Summary

/-!
# What is printed

A console is quiet, normal or verbose, and paints or does not. Each function here gives the lines
that one part of a run prints; on a quiet console only the paths of updated files are printed.
-/

namespace LicenseHeader

/-- How much is printed. -/
inductive Verbosity where
  /-- Listings and the summary. -/
  | normal
  /-- The paths of updated files. -/
  | quiet
  /-- Whole listings, and the summary with the time. -/
  | verbose
  deriving DecidableEq, Repr

/-- Where a run prints. -/
structure Console where
  /-- How much is printed. -/
  verbosity : Verbosity
  /-- Whether texts are painted. -/
  painted : Bool
  deriving DecidableEq, Repr

namespace Console

/-- A text in a paint, if the console paints. -/
def paint (console : Console) (paint : Paint) (text : String) : String :=
  if console.painted then
    "\x1b[" ++ paint.onCode ++ "m" ++ text ++ "\x1b[" ++ paint.offCode ++ "m"
  else text

/-- Lines that a quiet console does not print. -/
def unlessQuiet (console : Console) (lines : List String) : List String :=
  if console.verbosity = .quiet then [] else lines

/-- The word for one file or several. -/
def filesWord (count : Nat) : String := if count = 1 then "file" else "files"

/-- What is printed before any file is processed. -/
def start (console : Console) (count : Nat) (checkOnly : Bool) : List String :=
  let verb := if checkOnly then "Checking" else "Processing"
  console.unlessQuiet [verb ++ " " ++ toString count ++ " " ++ filesWord count ++ "..."]

/-- An empty line between parts. -/
def gap (console : Console) : List String := console.unlessQuiet [""]

/-- The path of a report as it is listed. -/
def listed (root : Option Path) (report : Report) : String := report.path.shown root

/-- The files whose header was written or has to be. -/
def updated (console : Console) (root : Option Path) (checkOnly : Bool) (reports : List Report) :
    List String :=
  if reports.isEmpty then []
  else if console.verbosity = .quiet then reports.map (listed root)
  else
    (console.paint .yellow "↻" ++ " " ++ if checkOnly then "Needs update:" else "Updated:") ::
      reports.map fun report => "  " ++ listed root report

/-- How many files that have the header already are listed on a console that is not verbose. -/
def listLimit : Nat := 20

/-- The files that have the header already. -/
def unchanged (console : Console) (root : Option Path) (reports : List Report) : List String :=
  if reports.isEmpty then []
  else
    let limit := if console.verbosity = .verbose then reports.length else listLimit
    let more := "  " ++ console.paint .dimmed "" ++ " ... and " ++
      toString (reports.length - limit) ++ " more (use -v to see all)"
    console.unlessQuiet <|
      (console.paint .green "✓" ++ " Skipped (already compliant):") ::
        (reports.take limit).map (fun report => "  " ++ listed root report) ++
        if limit < reports.length then [more] else []

/-- The files that could not be processed. -/
def failed (console : Console) (root : Option Path) (reports : List Report) : List String :=
  if reports.isEmpty then []
  else
    console.unlessQuiet <|
      (console.paint .red "✗" ++ " Skipped (could not process):") ::
        reports.map fun report =>
          "  " ++ listed root report ++ " (" ++ report.reason.getD "unknown error" ++ ")"

/-- What is printed when no header had to be written. -/
def allDone (console : Console) : List String :=
  console.unlessQuiet
    [console.paint .green "✓" ++ " All files already have the canonical header."]

/-- The counts of a run; a verbose console adds the time. -/
def summary (console : Console) (checkOnly : Bool) (summary : Summary) : List String :=
  let count (paint : Paint) (n : Nat) : String := console.paint paint (toString n)
  let time :=
    if console.verbosity = .verbose then " (" ++ summary.elapsed.seconds.fixed ++ "s)" else ""
  console.unlessQuiet
    ["Summary: " ++ count .yellow summary.updated ++
      (if checkOnly then " need update, " else " updated, ") ++
      count .cyan summary.unchanged ++ " unchanged, " ++
      count (if summary.hasFailures then .red else .cyan) summary.failed ++ " failed, " ++
      count .dimmed summary.ignored ++ " ignored" ++ time]

/-- What the user may do next. -/
def hint (console : Console) (message : String) : List String :=
  console.unlessQuiet [console.paint .yellow message]

/-- Something worth knowing. -/
def info (console : Console) (message : String) : List String :=
  console.unlessQuiet [console.paint .dimmed message]

/-- The text of printed lines. -/
def text (lines : List String) : String := String.join (lines.map (· ++ "\n"))

end Console

end LicenseHeader
