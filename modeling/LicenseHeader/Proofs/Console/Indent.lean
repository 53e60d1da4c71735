import LicenseHeader.Console.Basic

/-!
# Lines about single files

On a console that is not quiet the lines about single files, and the one that says how many are left
out, start with a blank, and all others do not. So the blank tells what is listed
(`filter_updated`, `filter_failed`, `filter_unchanged`).
-/

namespace LicenseHeader.Console

/-- Whether a line starts with a blank. -/
def isIndented (line : String) : Bool := line.toList.head? = some ' '

/-- Whether no line starts with a blank. -/
def Outdented (lines : List String) : Prop := ∀ line ∈ lines, isIndented line = false

/-- What stands in front of a line decides whether it starts with a blank. -/
theorem isIndented_append {first : String} (rest : String) (filled : first ≠ "") :
    isIndented (first ++ rest) = isIndented first := by
  unfold isIndented
  rw [String.toList_append, List.head?_append]
  cases start : first.toList with
  | nil => exact absurd (String.toList_eq_nil_iff.mp start) filled
  | cons c more => rfl

namespace Outdented

/-- No lines start with a blank. -/
theorem nil : Outdented [] := by simp [Outdented]

/-- One line that does not start with a blank. -/
theorem single {line : String} (plain : isIndented line = false) : Outdented [line] := by
  intro other member
  rw [List.mem_singleton.mp member]
  exact plain

/-- Lines behind others. -/
theorem append {lines more : List String} (first : Outdented lines) (second : Outdented more) :
    Outdented (lines ++ more) := by
  intro line member
  rcases List.mem_append.mp member with member | member
  · exact first line member
  · exact second line member

/-- None of the lines is kept that start with a blank. -/
theorem filter_eq {lines : List String} (plain : Outdented lines) :
    lines.filter isIndented = [] := by
  rw [List.filter_eq_nil_iff]
  intro line member
  rw [plain line member]
  exact Bool.false_ne_true

/-- Lines that a quiet console does not print. -/
theorem unlessQuiet {lines : List String} (plain : Outdented lines) (console : Console) :
    Outdented (console.unlessQuiet lines) := by
  unfold Console.unlessQuiet
  split
  · exact nil
  · exact plain

end Outdented

variable (console : Console)

/-- A painted text starts with an escape. -/
theorem isIndented_paint {text : String} (plain : isIndented text = false) (paint : Paint) :
    isIndented (console.paint paint text) = false := by
  unfold Console.paint
  split
  · simp only [String.append_assoc]
    rw [isIndented_append _ (by decide)]
    rfl
  · exact plain

/-- A line that starts with a painted sign. -/
theorem isIndented_paint_append {sign : String} (filled : sign ≠ "")
    (plain : isIndented sign = false) (paint : Paint) (rest : String) :
    isIndented (console.paint paint sign ++ rest) = false := by
  have some : console.paint paint sign ≠ "" := by
    unfold Console.paint
    split
    · simp only [String.append_assoc, ne_eq, String.append_eq_empty_iff]
      exact fun empty => absurd empty.1 (by decide)
    · exact filled
  rw [isIndented_append rest some]
  exact isIndented_paint console plain paint

/-- The line before the files are processed. -/
theorem outdented_start (count : Nat) (checkOnly : Bool) :
    Outdented (console.start count checkOnly) := by
  unfold start
  apply Outdented.unlessQuiet
  apply Outdented.single
  simp only [String.append_assoc]
  cases checkOnly
  · exact isIndented_append _ (by decide)
  · exact isIndented_append _ (by decide)

/-- The line between parts. -/
theorem outdented_gap : Outdented console.gap := (Outdented.single rfl).unlessQuiet console

/-- The line that says that nothing had to be written. -/
theorem outdented_allDone : Outdented console.allDone :=
  (Outdented.single
    (isIndented_paint_append console (by decide) (by decide) .green _)).unlessQuiet console

/-- The line with the counts. -/
theorem outdented_summary (checkOnly : Bool) (counts : Summary) :
    Outdented (console.summary checkOnly counts) := by
  unfold summary
  apply Outdented.unlessQuiet
  apply Outdented.single
  simp only [String.append_assoc]
  exact isIndented_append _ (by decide)

/-- A hint that does not start with a blank. -/
theorem outdented_hint {message : String} (plain : isIndented message = false) :
    Outdented (console.hint message) :=
  (Outdented.single (isIndented_paint console plain .yellow)).unlessQuiet console

/-- Something worth knowing that does not start with a blank. -/
theorem outdented_info {message : String} (plain : isIndented message = false) :
    Outdented (console.info message) :=
  (Outdented.single (isIndented_paint console plain .dimmed)).unlessQuiet console

/-- The row for a listed file. -/
def row (root : Option Path) (report : Report) : String := "  " ++ listed root report

/-- How many of the files that have the header already are listed. -/
def shownCount (count : Nat) : Nat :=
  if console.verbosity = .verbose then count else min count listLimit

/-- The line that says how many of the files that have the header already are left out, if any
are. -/
def leftOut (count : Nat) : List String :=
  if console.shownCount count = count then []
  else
    ["  " ++ console.paint .dimmed "" ++ " ... and " ++
      toString (count - console.shownCount count) ++ " more (use -v to see all)"]

/-- A row starts with a blank, whatever follows. -/
theorem isIndented_blank (rest : String) : isIndented ("  " ++ rest) = true :=
  isIndented_append rest (by decide)

/-- Rows are lines that start with a blank. -/
theorem filter_rows {line : Report → String} (indented : ∀ report, isIndented (line report) = true)
    (reports : List Report) : (reports.map line).filter isIndented = reports.map line := by
  rw [List.filter_eq_self]
  intro row member
  obtain ⟨report, -, rfl⟩ := List.mem_map.mp member
  exact indented report

section Loud

variable {console} (loud : console.verbosity ≠ .quiet) (root : Option Path) (reports : List Report)

include loud

/-- Every updated file has a row. -/
theorem filter_updated (checkOnly : Bool) :
    (console.updated root checkOnly reports).filter isIndented = reports.map (row root) := by
  unfold updated
  cases reports with
  | nil => rfl
  | cons report more =>
    have title : isIndented (console.paint .yellow "↻" ++ " " ++
        if checkOnly then "Needs update:" else "Updated:") = false := by
      rw [String.append_assoc]
      exact isIndented_paint_append console (by decide) (by decide) .yellow _
    rw [List.isEmpty_cons, if_neg Bool.false_ne_true, if_neg loud, List.filter_cons, title]
    exact filter_rows (fun report => isIndented_blank _) _

/-- Every file that could not be processed has a row with the reason. -/
theorem filter_failed :
    (console.failed root reports).filter isIndented = reports.map fun report =>
      row root report ++ " (" ++ report.reason.getD "unknown error" ++ ")" := by
  unfold failed unlessQuiet
  cases reports with
  | nil => rfl
  | cons report more =>
    have title : isIndented (console.paint .red "✗" ++ " Skipped (could not process):") = false :=
      isIndented_paint_append console (by decide) (by decide) .red _
    rw [List.isEmpty_cons, if_neg Bool.false_ne_true, if_neg loud, List.filter_cons, title]
    refine filter_rows (fun report => ?_) _
    simp only [String.append_assoc]
    exact isIndented_blank _

/-- The first files that have the header already have a row each, and the others are counted. -/
theorem filter_unchanged :
    (console.unchanged root reports).filter isIndented =
      (reports.take (console.shownCount reports.length)).map (row root) ++
        console.leftOut reports.length := by
  have title : isIndented (console.paint .green "✓" ++ " Skipped (already compliant):") = false :=
    isIndented_paint_append console (by decide) (by decide) .green _
  let limit := if console.verbosity = .verbose then reports.length else listLimit
  have count : console.shownCount reports.length = min limit reports.length := by
    unfold shownCount limit
    split <;> omega
  have taken : reports.take (console.shownCount reports.length) = reports.take limit := by
    rw [count, ← List.take_eq_take_min]
  have rest : console.leftOut reports.length = if limit < reports.length then
      ["  " ++ console.paint .dimmed "" ++ " ... and " ++ toString (reports.length - limit) ++
        " more (use -v to see all)"] else [] := by
    unfold leftOut
    rw [count]
    by_cases more : limit < reports.length
    · rw [if_pos more, if_neg (by omega), Nat.min_eq_left (Nat.le_of_lt more)]
    · rw [if_neg more, if_pos (by omega)]
  have counted : (console.leftOut reports.length).filter isIndented =
      console.leftOut reports.length := by
    unfold leftOut
    split
    · rfl
    · simp only [String.append_assoc, List.filter_cons, isIndented_blank, if_true, List.filter_nil]
  unfold unchanged unlessQuiet
  cases empty : reports.isEmpty with
  | true =>
    obtain rfl := List.isEmpty_iff.mp empty
    rw [rest]
    simp
  | false =>
    rw [if_neg Bool.false_ne_true, if_neg loud, taken]
    show ((_ :: _) ++ _ : List String).filter isIndented = _
    rw [List.filter_append, List.filter_cons, title, if_neg Bool.false_ne_true,
      filter_rows (fun report => isIndented_blank _), ← counted, rest]
    rfl

end Loud

end LicenseHeader.Console
