import LicenseHeader.Proofs.Text.Lines

/-!
# Whole lines in front of a text

`Text.Cut` says that a text consists of whole lines and what follows them: each of the lines ends
with its only terminator, or it is the last one and has none. A text is cut so exactly where its
lines are divided in two (`Text.cut_iff`).
-/

namespace LicenseHeader.Text

/-- Whether a text consists of whole lines and a rest behind them. -/
inductive Cut : List Text → Text → Text → Prop where
  /-- No line is cut off. -/
  | nil (rest : Text) : Cut [] rest rest
  /-- A line ends with its only terminator. -/
  | ended {body stop text rest : Text} {more : List Text} (unbroken : Unbroken body)
      (ends : Terminates stop text) (behind : Cut more rest text) :
      Cut ((body ++ stop) :: more) rest (body ++ stop ++ text)
  /-- The last line of a text may have no terminator. -/
  | last {body : Text} (unbroken : Unbroken body) (filled : body ≠ []) : Cut [body] [] body

namespace Cut

variable {text rest : Text} {run : List Text}

/-- The lines and the rest are the text. -/
theorem flatten_append (cut : Cut run rest text) : run.flatten ++ rest = text := by
  induction cut with
  | nil rest => rfl
  | ended unbroken ends behind ih => rw [List.flatten_cons, List.append_assoc, ih]
  | last unbroken filled => simp

/-- The lines of the text are those cut off and those of the rest. -/
theorem lines_eq (cut : Cut run rest text) : lines text = run ++ lines rest := by
  induction cut with
  | nil rest => rfl
  | ended unbroken ends behind ih => rw [lines_append unbroken ends, ih, List.cons_append]
  | last unbroken filled => exact lines_of_unbroken unbroken filled

end Cut

/-- A text is cut behind some of its lines. -/
theorem cut_of_lines {text : Text} {run more : List Text} (whole : lines text = run ++ more) :
    Cut run more.flatten text := by
  induction run generalizing text with
  | nil =>
    rw [List.nil_append] at whole
    rw [← whole, flatten_lines]
    exact .nil text
  | cons line run ih =>
    obtain ⟨unbroken, filled, rfl, none⟩ | ⟨body, stop, behind, rfl, unbroken, ends, rfl, others⟩ :=
      lines_cons_cases whole
    · obtain ⟨rfl, rfl⟩ := List.append_eq_nil_iff.mp none
      exact .last unbroken filled
    · exact .ended unbroken ends (ih others.symm)

/-- A text is cut exactly where its lines are divided in two. -/
theorem cut_iff {text rest : Text} {run : List Text} :
    Cut run rest text ↔ text = run.flatten ++ rest ∧ lines text = run ++ lines rest := by
  constructor
  · intro cut
    exact ⟨cut.flatten_append.symm, cut.lines_eq⟩
  · rintro ⟨-, divided⟩
    have cut := cut_of_lines divided
    rwa [flatten_lines] at cut

/-- The first line of a text is the only one that can be cut off alone. -/
theorem cut_single_iff {text line : Text} :
    (∃ rest, Cut [line] rest text) ↔ (lines text).head? = some line := by
  constructor
  · rintro ⟨rest, cut⟩
    rw [cut.lines_eq]
    rfl
  · intro first
    obtain ⟨more, whole⟩ := List.head?_eq_some_iff.mp first
    exact ⟨more.flatten, cut_of_lines whole⟩

end LicenseHeader.Text
