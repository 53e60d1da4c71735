import LicenseHeader.Log.Directive

/-!
# Log filters

A message is logged when the filter admits its level, the part of the program that it comes from,
and its fields. A filter is written as directives between commas. Of those about a message the one
with the longest target decides, and among these one that asks for a field before one that does not.
-/

namespace LicenseHeader.Log

/-- The parts of a text between commas. -/
def betweenCommas : Text → List Text
  | [] => [[]]
  | c :: rest =>
    if c = ',' then [] :: betweenCommas rest
    else
      match betweenCommas rest with
      | [] => [[c]]
      | part :: more => (c :: part) :: more

/-- The filter that a text writes: its directives. Without any directive only errors are logged. -/
def parseFilter? (text : Text) : Option (List Directive) :=
  match ((betweenCommas text).filter (!·.isEmpty)).mapM Directive.parse? with
  | some [] => some [{ Directive.everything with level := some .error }]
  | found => found

/-- The one field of every message. -/
def messageField : Text := "message".toList

/-- Whether a directive is about the messages of a part of the program. -/
def isAbout (directive : Directive) (target : Text) : Bool :=
  directive.decides && directive.target.isPrefixOf target &&
    (directive.field.map fun demand => decide (demand.name = messageField)).getD true

/-- How exactly a directive says what it is about. -/
def exactness (directive : Directive) : Nat × Nat :=
  (directive.target.length, if directive.field.isSome then 1 else 0)

/-- Whether a directive is at least as exact as another. -/
def isAsExact (directive other : Directive) : Bool :=
  let left := exactness directive
  let right := exactness other
  right.1 < left.1 || (right.1 = left.1 && right.2 ≤ left.2)

/-- Whether a filter admits a message: the last of the most exact directives about it decides. -/
def admits (filter : List Directive) (target : Text) (level : Level) : Bool :=
  let best := (filter.filter (isAbout · target)).foldl (fun best directive =>
    match best with
    | none => some directive
    | some other => if isAsExact directive other then some directive else some other) none
  match best.bind (·.level) with
  | some highest => level.rank ≤ highest.rank
  | none => false

/-- The filter of a run: the one that the environment writes, if it does and this is one, and
otherwise the level for the flags. -/
def filterFor (written : Option String) (level : Level) : List Directive :=
  (written.bind fun text => parseFilter? text.toList).getD
    [{ Directive.everything with level := some level }]

/-- The part of the program that tells about the processing of files. -/
def processing : Text := "hdrsync::processor".toList

/-- Characters as they are logged: those that could control a terminal are written with their
number, which has two digits at least. -/
def escapeChar (c : Char) : Text :=
  let digits := Nat.toDigits 16 c.toNat
  if ['\x07', '\x08', '\x0c', '\x1b', '\x7f'].contains c then
    "\\x".toList ++ (if digits.length < 2 then ['0'] else []) ++ digits
  else if '\u0080' ≤ c && c ≤ '\u009f' then "\\u\x7b".toList ++ digits ++ ['\x7d']
  else [c]

/-- A message as it is logged. -/
def escape (message : String) : String := String.ofList (message.toList.flatMap escapeChar)

end LicenseHeader.Log
