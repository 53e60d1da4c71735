import LicenseHeader.Json.Reader
import LicenseHeader.Json.Writer
import LicenseHeader.Report.Summary

/-!
# Reports as JSON

A report is an object with a path, a style, an action and a reason. It is read back from such an
object, whatever other fields this has, or from an array of the four values. Bytes of a path that
are no text are written as replacement characters.
-/

namespace LicenseHeader

/-- The value of something that may be missing. -/
def JsonValue.ofOption {α : Type} (write : α → JsonValue) : Option α → JsonValue
  | none => .null
  | some value => write value

/-- The word that a value names: a string, or an object whose one field is the word and holds
nothing. -/
def JsonValue.word? : JsonValue → Option String
  | .string (some text) => some (String.ofList text)
  | .object [(some text, .null)] => some (String.ofList text)
  | _ => none

/-- The text that a value is. -/
def JsonValue.text? : JsonValue → Option String
  | .string (some text) => some (String.ofList text)
  | _ => none

/-- What a value that may be null holds: nothing, or what `read` makes of it. -/
def JsonValue.optional? {α : Type} (read : JsonValue → Option α) : JsonValue → Option (Option α)
  | .null => some none
  | value => (read value).map some

namespace Style

/-- The value of a style. -/
def toJson (style : Style) : JsonValue := .ofText style.name.toList

/-- The style that a value names. -/
def ofJson? (value : JsonValue) : Option Style := value.word?.bind ofName?

end Style

namespace Action

/-- The value of an action. -/
def toJson (action : Action) : JsonValue := .ofText action.name.toList

/-- The action that a value names. -/
def ofJson? (value : JsonValue) : Option Action := value.word?.bind ofName?

end Action

namespace Report

/-- The value of a report. -/
def toJson (report : Report) : JsonValue :=
  .ofFields [("path", .ofText report.path.display.toList),
    ("style", .ofOption Style.toJson report.style),
    ("action", report.action.toJson),
    ("reason", .ofOption (fun reason => .ofText reason.toList) report.reason)]

/-- The report of four values. -/
def ofValues? (path style action reason : JsonValue) : Option Report := do
  return {
    path := Path.ofString (← path.text?)
    style := ← style.optional? Style.ofJson?
    action := ← Action.ofJson? action
    reason := ← reason.optional? JsonValue.text? }

/-- The values of the fields with a name. -/
def fieldValues (fields : List (JsonString × JsonValue)) (name : String) : List JsonValue :=
  (fields.filter fun field => field.1 = some name.toList).map (·.2)

/-- The value of the field with a name, which has to be there once. -/
def required? (fields : List (JsonString × JsonValue)) (name : String) : Option JsonValue :=
  match fieldValues fields name with
  | [value] => some value
  | _ => none

/-- The value of the field with a name, which may be there once; null when it is missing. -/
def missable? (fields : List (JsonString × JsonValue)) (name : String) : Option JsonValue :=
  match fieldValues fields name with
  | [] => some .null
  | [value] => some value
  | _ => none

/-- The report that a value holds. -/
def ofJson? : JsonValue → Option Report
  | .array [path, style, action, reason] => ofValues? path style action reason
  | .object fields => do
    if fields.all (·.1.isSome) then
      ofValues? (← required? fields "path") (← missable? fields "style")
        (← required? fields "action") (← missable? fields "reason")
    else none
  | _ => none

end Report

namespace Summary

/-- The value of a summary. -/
def toJson (summary : Summary) : JsonValue :=
  .ofFields [("total_files", .ofNat summary.total),
    ("files_updated", .ofNat summary.updated),
    ("files_unchanged", .ofNat summary.unchanged),
    ("files_failed", .ofNat summary.failed),
    ("files_ignored", .ofNat summary.ignored),
    ("processing_time", .number summary.elapsed.seconds.text.toList)]

end Summary

/-- Everything that the report of a run holds. -/
structure RunReport where
  /-- When the report was made, as local time in words. -/
  generatedAt : String
  /-- Whether nothing was to be written. -/
  checkOnly : Bool
  /-- The counts. -/
  summary : Summary
  /-- The reports in the order in which they were made. -/
  files : List Report
  deriving Repr

namespace RunReport

/-- The value of the report of a run. -/
def toJson (report : RunReport) : JsonValue :=
  .ofFields [("generated_at", .ofText report.generatedAt.toList),
    ("check_only", .bool report.checkOnly),
    ("summary", report.summary.toJson),
    ("files", .array (report.files.map Report.toJson))]

/-- The report of a run as the text of a file. -/
def text (report : RunReport) : Text := report.toJson.pretty

end RunReport

end LicenseHeader
