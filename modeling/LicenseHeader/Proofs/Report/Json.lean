import LicenseHeader.Proofs.Decimal.Numeral
import LicenseHeader.Proofs.Json.Values
import LicenseHeader.Proofs.Path.Text
import LicenseHeader.Report.Json

/-!
# Reports are read back

A report is read back from its value with its path as it is shown (`Report.ofJson?_toJson`), and the
value is read back from the text that it is written as. So a report is recovered from its own text,
and from the file with the report of a run come all reports in their order, with counts that are
those of the reports (`RunReport.recovers_reports`).
-/

namespace LicenseHeader

open JsonValue

/-! ## Values of reports -/

/-- The object with the given fields is sound when their values are. -/
theorem JsonValue.isSound_ofFields {fields : List (String × JsonValue)}
    (each : ∀ field ∈ fields, field.2.IsSound) : (ofFields fields).IsSound := by
  refine .object fun field member => ?_
  obtain ⟨named, among, rfl⟩ := List.mem_map.mp member
  exact each named among

/-- The value of something that may be missing is sound when the value of the thing is. -/
theorem JsonValue.isSound_ofOption {α : Type} {write : α → JsonValue}
    (each : ∀ thing, (write thing).IsSound) (thing : Option α) :
    (ofOption write thing).IsSound := by
  cases thing with
  | none => exact .null
  | some thing => exact each thing

/-- The values of the fields with a name are those that were given under it. -/
theorem Report.fieldValues_ofFields (fields : List (String × JsonValue)) (name : String) :
    fieldValues (fields.map fun field => (some field.1.toList, field.2)) name =
      (fields.filter (·.1 = name)).map (·.2) := by
  unfold fieldValues
  rw [List.filter_map, List.map_map]
  refine congrArg (List.map _) (List.filter_congr fun field _ => ?_)
  simp [String.toList_inj]

/-- A text is read back from its value. -/
theorem JsonValue.text?_ofText (text : String) : (ofText text.toList).text? = some text :=
  congrArg some String.ofList_toList

/-- Something that may be missing is read back from its value when the thing is, unless this is
written as null. -/
theorem JsonValue.optional?_ofOption {α : Type} {write : α → JsonValue}
    {read : JsonValue → Option α} (back : ∀ thing, read (write thing) = some thing)
    (apart : ∀ thing, write thing ≠ .null) (thing : Option α) :
    (ofOption write thing).optional? read = some thing := by
  cases thing with
  | none => rfl
  | some thing => rw [ofOption, optional?.eq_2 _ _ (apart thing), back, Option.map_some]

/-- A style is read back from its value. -/
theorem Style.ofJson?_toJson (style : Style) : Style.ofJson? style.toJson = some style := by
  cases style <;> decide

/-- An action is read back from its value. -/
theorem Action.ofJson?_toJson (action : Action) : Action.ofJson? action.toJson = some action := by
  cases action <;> decide

/-- The bytes of a path that is read from what is shown of another. -/
theorem Path.bytes_ofString_display (path : Path) :
    (Path.ofString path.display).bytes = Utf8.encode (Utf8.decodeLossy path.bytes) := by
  rw [Path.ofString, Path.display, String.toList_ofList]

/-- A path is read back from what is shown of it exactly when it is text. -/
theorem Path.ofString_display_eq_iff (path : Path) :
    Path.ofString path.display = path ↔ Path.IsText path.bytes := by
  constructor
  · intro same
    rw [← same, Path.bytes_ofString_display]
    exact ⟨_, rfl⟩
  · rintro ⟨text, written⟩
    have bytes := Path.bytes_ofString_display path
    rw [← written, Utf8.decodeLossy_encode, written] at bytes
    exact congrArg Path.mk bytes

namespace Report

/-- A report with its path as it is shown. -/
def shown (report : Report) : Report := { report with path := .ofString report.path.display }

/-- A report is as it is shown exactly when its path is text. -/
theorem shown_eq_iff (report : Report) :
    report.shown = report ↔ Path.IsText report.path.bytes := by
  rw [← Path.ofString_display_eq_iff]
  obtain ⟨path, style, action, reason⟩ := report
  simp [shown]

/-- A byte that is no text is shown as a replacement character. -/
example : (Report.shown ⟨⟨[0xFF, 0x2E, 0x63]⟩, some .block, .failed, none⟩).path.bytes =
    [0xEF, 0xBF, 0xBD, 0x2E, 0x63] := by
  cbv

/-- The value of a report is sound. -/
theorem isSound_toJson (report : Report) : report.toJson.IsSound := by
  refine isSound_ofFields ?_
  simp only [List.forall_mem_cons]
  exact ⟨.string _, isSound_ofOption (fun _ => .string _) _, .string _,
    isSound_ofOption (fun _ => .string _) _, List.forall_mem_nil _⟩

/-- A report is read back from its value, with its path as it is shown. -/
theorem ofJson?_toJson (report : Report) : ofJson? report.toJson = some report.shown := by
  have style := optional?_ofOption Style.ofJson?_toJson (fun _ => JsonValue.noConfusion)
    report.style
  have reason := optional?_ofOption text?_ofText (fun _ => JsonValue.noConfusion) report.reason
  have values : ofJson? report.toJson = ofValues? (ofText report.path.display.toList)
      (ofOption Style.toJson report.style) report.action.toJson
      (ofOption (fun reason => ofText reason.toList) report.reason) := by
    unfold toJson ofFields ofJson?
    simp only [required?, missable?, fieldValues_ofFields]
    simp
  rw [values, ofValues?, text?_ofText, style, Action.ofJson?_toJson, reason]
  rfl

/-- Reports are read back from their values in their order. -/
theorem mapM_ofJson?_toJson (reports : List Report) :
    (reports.map toJson).mapM ofJson? = some (reports.map shown) := by
  induction reports with
  | nil => rfl
  | cons report more ih =>
    rw [List.map_cons, List.mapM_cons, ofJson?_toJson, ih]
    rfl

/-- Reports are as many of an action as they are shown to be. -/
theorem count_map_shown (reports : List Report) (action : Action) :
    Summary.count (reports.map shown) action = Summary.count reports action := by
  rw [Summary.count, Summary.count, List.countP_map]
  rfl

end Report

/-! ## The report of a run -/

namespace JsonValue

/-- The value of the field of an object that has a name, which has to be there once. -/
def field? (name : String) : JsonValue → Option JsonValue
  | .object fields => Report.required? fields name
  | _ => none

/-- The elements of an array. -/
def elements? : JsonValue → Option (List JsonValue)
  | .array elements => some elements
  | _ => none

/-- The whole number that a value is. -/
def count? : JsonValue → Option Nat
  | .number text => Text.number? text
  | _ => none

/-- The value that was given under a name once is the value of the field. -/
theorem field?_ofFields {fields : List (String × JsonValue)} {name : String} {value : JsonValue}
    (once : fields.filter (·.1 = name) = [(name, value)]) :
    (ofFields fields).field? name = some value := by
  rw [ofFields, field?, Report.required?, Report.fieldValues_ofFields, once]
  rfl

/-- A whole number is read back from its value. -/
theorem count?_ofNat (n : Nat) : (ofNat n).count? = some n := Text.number?_toString n

end JsonValue

namespace Summary

/-- The value of a summary is sound. -/
theorem isSound_toJson (summary : Summary) : summary.toJson.IsSound := by
  have count (n : Nat) : (ofNat n).IsSound := .number (isNumeral_toString n)
  refine isSound_ofFields ?_
  simp only [List.forall_mem_cons]
  exact ⟨count _, count _, count _, count _, count _, .number (Binary.isNumeral_text _),
    List.forall_mem_nil _⟩

end Summary

namespace RunReport

/-- The value of the report of a run is sound. -/
theorem isSound_toJson (report : RunReport) : report.toJson.IsSound := by
  have files : ∀ value ∈ report.files.map Report.toJson, value.IsSound := by
    rw [List.forall_mem_map]
    exact fun file _ => file.isSound_toJson
  refine isSound_ofFields ?_
  simp only [List.forall_mem_cons]
  exact ⟨.string _, .bool _, report.summary.isSound_toJson, .array files, List.forall_mem_nil _⟩

/-- The value that a file with these bytes holds. -/
def ofBytes? (bytes : Bytes) : Option JsonValue := (Utf8.decode bytes).toOption.bind JsonValue.read

/-- The reports that the value of the report of a run holds. -/
def files? (value : JsonValue) : Option (List Report) :=
  ((value.field? "files").bind JsonValue.elements?).bind (·.mapM Report.ofJson?)

/-- A count that the value of the report of a run holds. -/
def counted? (value : JsonValue) (name : String) : Option Nat :=
  ((value.field? "summary").bind (·.field? name)).bind JsonValue.count?

/-- Whether the value of the report of a run holds reports, in their order, and their counts. -/
structure Holds (value : JsonValue) (reports : List Report) : Prop where
  /-- The reports. -/
  files : files? value = some reports
  /-- How many there are. -/
  total : counted? value "total_files" = some reports.length
  /-- How many there are of each action. -/
  counts : ∀ action, counted? value ("files_" ++ action.name) = some (Summary.count reports action)

/-- The bytes that are written for the report of a run hold its value. -/
theorem ofBytes?_encode_text (report : RunReport) :
    ofBytes? (Utf8.encode report.text) = some report.toJson := by
  have read : JsonValue.read report.text = some report.toJson :=
    (report.isSound_toJson.reads_prettyAt 0).read
  rw [ofBytes?, Utf8.decode_eq_ok_iff.mpr rfl, Except.toOption, Option.bind_some, read]

/-- The value of the report of a run holds the reports as they are shown. -/
theorem holds_toJson (generatedAt : String) (checkOnly : Bool) (elapsed : Elapsed)
    (reports : List Report) :
    Holds (toJson ⟨generatedAt, checkOnly, .ofReports reports elapsed, reports⟩)
      (reports.map Report.shown) := by
  generalize made : toJson ⟨generatedAt, checkOnly, .ofReports reports elapsed, reports⟩ = value
  have files : value.field? "files" = some (.array (reports.map Report.toJson)) :=
    made ▸ field?_ofFields (by simp)
  have summary : value.field? "summary" = some (Summary.ofReports reports elapsed).toJson :=
    made ▸ field?_ofFields (by simp)
  refine ⟨?_, ?_, fun action => ?_⟩
  · rw [files?, files]
    exact Report.mapM_ofJson?_toJson reports
  · have total : (Summary.ofReports reports elapsed).toJson.field? "total_files" =
        some (ofNat reports.length) := field?_ofFields (by simp [Summary.ofReports])
    rw [counted?, summary, Option.bind_some, total, List.length_map]
    exact count?_ofNat reports.length
  · have count : (Summary.ofReports reports elapsed).toJson.field? ("files_" ++ action.name) =
        some (ofNat (Summary.count reports action)) := by
      cases action <;> exact field?_ofFields (by simp [Summary.ofReports, Action.name])
    rw [counted?, summary, Option.bind_some, count, Report.count_map_shown]
    exact count?_ofNat (Summary.count reports action)

/-- Every report is recovered from its text without any space: its style, action and reason always,
its path with replacements for bytes that are no text, and so all of it exactly when its path is
text. From the bytes that are written for the report of a run come all its reports in their order,
recovered in the same way, and the counts in these bytes are those of the reports. -/
theorem recovers_reports (generatedAt : String) (checkOnly : Bool) (elapsed : Elapsed)
    (reports : List Report) :
    (∀ report : Report,
      (JsonValue.read report.toJson.compact).bind Report.ofJson? = some report.shown ∧
        (report.shown = report ↔ Path.IsText report.path.bytes)) ∧
      ∃ value, ofBytes? (Utf8.encode
          (text ⟨generatedAt, checkOnly, .ofReports reports elapsed, reports⟩)) = some value ∧
        Holds value (reports.map Report.shown) := by
  refine ⟨fun report => ⟨?_, report.shown_eq_iff⟩, _, ofBytes?_encode_text _,
    holds_toJson generatedAt checkOnly elapsed reports⟩
  rw [report.isSound_toJson.reads_compact.read, Option.bind_some, report.ofJson?_toJson]

end RunReport

end LicenseHeader
