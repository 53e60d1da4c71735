import LicenseHeader.Proofs.Header.HiddenHeader
import LicenseHeader.Proofs.Header.Stripping
import Mathlib.Data.List.TakeWhile

/-!
# Blank lines behind the header

Line breaks are dropped in front of the body of a text, and a run of line comments takes all blank
lines with it, but a line of other white space stays behind a closed comment, and in the block style
in front of a text. `LeavesBlank` says when a text has such a line, and `startsBlank_bodyOf_iff`
that this is the only way to a body that starts with a blank line.
-/

namespace LicenseHeader

/-- Whether a text has a first line, and this holds nothing but white space. -/
def Text.StartsBlank (text : Text) : Prop :=
  ∃ line ∈ (Text.lines text).head?, ∀ c ∈ line, Text.isBlank c = true

/-- Whether a text without line breaks in front has a blank line that stays in front of its body. -/
inductive LeavesBlank : Style → Text → Prop where
  /-- Behind a closed comment and line breaks. -/
  | closed {style : Style} {opener closer inner after : Text}
      (kind : (opener, closer) ∈ Comment.delimiters style) (first : Text.IsFirst closer inner)
      (blank : (Text.dropBreaks after).StartsBlank) :
      LeavesBlank style (opener ++ inner ++ closer ++ after)
  /-- In the block style, in front of everything. -/
  | front {text : Text} (blank : text.StartsBlank) : LeavesBlank .block text

/-- A line is blank when its characters are. -/
theorem Text.isBlankLine_iff {line : Text} :
    Text.isBlankLine line = true ↔ ∀ c ∈ line, Text.isBlank c = true := by
  unfold Text.isBlankLine Text.dropBlanks
  rw [List.isEmpty_iff, List.dropWhile_eq_nil_iff]

/-- Behind a run of line comments stands no blank line. -/
theorem Comment.IsRun.not_startsBlank {marker after : Text} {run : List Text}
    (lines : Comment.IsRun marker run after) : ¬ after.StartsBlank := by
  rintro ⟨line, first, white⟩
  have counts := Comment.inRun_of_isBlankLine marker (Text.isBlankLine_iff.mpr white)
  rw [lines.longest line first] at counts
  contradiction

/-- A text that stripping leaves whole starts with no blank line in the sharp style. -/
theorem not_startsBlank_of_whole {rest text : Text}
    (stripped : Comment.strip .sharp rest = .whole text) (start : Text.dropBreaks rest = text) :
    ¬ text.StartsBlank := by
  rintro ⟨line, first, white⟩
  obtain ⟨run, after, whole, lines, -⟩ :=
    Comment.exists_run first (Comment.inRun_of_isBlankLine _ (Text.isBlankLine_iff.mpr white))
  have leads : Comment.Leads .sharp run.flatten after :=
    .run lines fun other => by contradiction
  exact Comment.not_leads_of_strip stripped (start.trans whole) leads

/-- The body of a text starts with no line break. -/
theorem head?_bodyOf (style : Style) (rest : Text) :
    ∀ c ∈ (bodyOf style rest).head?, Text.isBreak c = false := by
  have trimmed := Comment.strip_trimmed style rest
  unfold bodyOf
  rwa [Text.dropBreaks_of_head trimmed]

/-- The body of a text starts with a blank line exactly when the text behind the preamble leaves
one. -/
theorem startsBlank_bodyOf_iff (style : Style) (rest : Text) :
    (bodyOf style rest).StartsBlank ↔ LeavesBlank style (Text.dropBreaks rest) := by
  have behind {after : Text} (stripped : Comment.strip style rest = .after after) :
      bodyOf style rest = Text.dropBreaks after := by
    unfold bodyOf
    rw [stripped]
    exact Text.dropBreaks_dropBreaks after
  have kept {text : Text} (stripped : Comment.strip style rest = .whole text)
      (start : Text.dropBreaks rest = text) : bodyOf style rest = text := by
    unfold bodyOf
    rw [stripped, ← start]
    exact Text.dropBreaks_dropBreaks rest
  constructor
  · intro blank
    rcases Comment.strip_cases style rest with ⟨comment, after, start, leads, stripped⟩ | stripped
    · rw [behind stripped] at blank
      rw [start]
      cases leads with
      | closed _ kind first => exact .closed kind first blank
      | run lines _ =>
        rw [lines.dropBreaks_eq] at blank
        exact absurd blank lines.not_startsBlank
    · rw [kept stripped rfl] at blank
      cases style with
      | block => exact .front blank
      | sharp => exact absurd blank (not_startsBlank_of_whole stripped rfl)
  · intro leaves
    generalize start : Text.dropBreaks rest = text at leaves
    cases leaves with
    | closed kind first blank =>
      rw [behind (Comment.strip_of_leads start (.closed _ kind first))]
      exact blank
    | front blank =>
      obtain ⟨line, first, white⟩ := blank
      have stripped := strip_of_blank start first (Text.isBlankLine_iff.mpr white)
      rw [kept stripped start]
      exact ⟨line, first, white⟩

/-- The body of a normal form never starts with a line break, and it starts with a blank line
exactly when the text left one: behind a closed comment, or in the block style in front. -/
theorem blank_line_iff_leavesBlank {style : Style} {text new : Text}
    (made : normalize style text = some new) :
    ∃ body, new = (Preamble.split style text).1.text ++ style.header ++ body ∧
      (∀ c ∈ body.head?, Text.isBreak c = false) ∧
      (body.StartsBlank ↔
        LeavesBlank style (Text.dropBreaks (Preamble.split style text).2)) := by
  obtain ⟨-, whole⟩ := normalize_eq_some_iff.mp made
  exact ⟨_, whole, head?_bodyOf style _, startsBlank_bodyOf_iff style _⟩

/-- A line of white space in front of a text stays below the header. -/
theorem normalize_blank_line :
    normalize .block " \nint x;\n".toList = some (Style.block.header ++ " \nint x;\n".toList) ∧
      Text.StartsBlank " \nint x;\n".toList :=
  ⟨by decide +kernel, " \n".toList, by decide, Text.isBlankLine_iff.mp (by decide)⟩

/-- White space behind the quote that ends a string stays too, and this is the way that is
counted. -/
theorem blank_line_iff_leavesBlank_string :
    normalize .sharp "'''old''' \nx = 1\n".toList =
        some (Style.sharp.header ++ " \nx = 1\n".toList) ∧
      ∃ body,
        Style.sharp.header ++ " \nx = 1\n".toList =
          (Preamble.split .sharp "'''old''' \nx = 1\n".toList).1.text ++
            Style.sharp.header ++ body ∧
        (∀ c ∈ body.head?, Text.isBreak c = false) ∧
        (body.StartsBlank ↔ LeavesBlank .sharp
          (Text.dropBreaks (Preamble.split .sharp "'''old''' \nx = 1\n".toList).2)) := by
  have made : normalize .sharp "'''old''' \nx = 1\n".toList =
      some (Style.sharp.header ++ " \nx = 1\n".toList) := by decide +kernel
  exact ⟨made, blank_line_iff_leavesBlank made⟩

end LicenseHeader
