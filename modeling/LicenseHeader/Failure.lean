/-!
# Failures

A failure is a message and the messages of what caused it, the nearest cause first.
-/

namespace LicenseHeader

/-- Why a run, or a part of it, ended. -/
structure Failure where
  /-- What failed. -/
  message : String
  /-- Why it failed, the nearest cause first. -/
  causes : List String
  deriving DecidableEq, Repr

namespace Failure

/-- A failure with what was being done when it arose. -/
def during (failure : Failure) (message : String) : Failure :=
  ⟨message, failure.message :: failure.causes⟩

/-- The messages in one line. -/
def line (failure : Failure) : String := ": ".intercalate (failure.message :: failure.causes)

/-- The lines of one cause: `mark` stands in front of the first one, and as many blanks in front of
the others. -/
def indented (mark : String) (cause : String) : List String :=
  match cause.splitOn "\n" with
  | [] => []
  | first :: more => (mark ++ first) :: more.map ("".pushn ' ' mark.length ++ ·)

/-- The causes as they are listed; they are numbered if there are several. -/
def causeLines (causes : List String) : List String :=
  match causes with
  | [cause] => indented "    " cause
  | _ => causes.zipIdx.flatMap fun (cause, index) =>
    indented ("    " ++ toString index ++ ": ") cause

/-- The lines that tell of a failure at the end of a run. -/
def lines (failure : Failure) : List String :=
  ("Error: " ++ failure.message) ::
    if failure.causes.isEmpty then [] else "" :: "Caused by:" :: causeLines failure.causes

end Failure

end LicenseHeader
