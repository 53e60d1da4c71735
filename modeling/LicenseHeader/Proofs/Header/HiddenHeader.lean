import LicenseHeader.Proofs.Header.NormalForm

/-!
# Headers behind a comment

At most one leading comment is taken off a text, so a header that stands behind another comment, or
behind a line of blanks, stays in the body, and the normal form has it twice. `Hides` says when a
text holds such a header, and `startsWithHeader_bodyOf_iff` that this is the only way to two headers.
-/

namespace LicenseHeader

namespace Text

/-- Whether a line holds nothing but white space. -/
def isBlankLine (line : Text) : Bool := (dropBlanks line).isEmpty

/-- The text without the blank lines it starts with. -/
def dropBlankLines (text : Text) : Text := ((lines text).dropWhile isBlankLine).flatten

/-- Without a blank line in front, dropping them changes nothing. -/
theorem dropBlankLines_of_head {text : Text}
    (filled : ∀ line ∈ (lines text).head?, isBlankLine line = false) :
    dropBlankLines text = text := by
  unfold dropBlankLines
  have whole := flatten_lines text
  cases cut : lines text with
  | nil =>
    rw [cut] at whole
    simpa using whole
  | cons line more =>
    rw [cut] at whole filled
    have stays : isBlankLine line = false := filled line rfl
    simpa [stays] using whole

/-- A text that starts with something else than white space has no blank line in front. -/
theorem not_isBlankLine_of_plain {text : Text} {c : Char} (plain : isBlank c = false)
    (starts : [c] <+: text) : ∀ line ∈ (lines text).head?, isBlankLine line = false := by
  intro line head
  have filled : text ≠ [] := by
    rintro rfl
    exact absurd (List.prefix_nil.mp starts) (by simp)
  rw [head?_lines filled] at head
  obtain rfl : (splitFirstLine text).1 = line := by simpa using head
  have unbroken : Unbroken [c] := by simpa [Unbroken] using isBreak_of_plain plain
  obtain ⟨rest, first⟩ := prefix_firstLine unbroken starts
  rw [← first]
  simp [isBlankLine, dropBlanks, plain]

/-- A terminator in front is a blank line. -/
theorem dropBlankLines_terminator {stop rest : Text} (ends : Terminates stop rest) :
    dropBlankLines (stop ++ rest) = dropBlankLines rest := by
  have blank : isBlankLine stop = true := by
    cases ends <;> decide
  unfold dropBlankLines
  rw [lines_terminator ends]
  simp [blank]

/-- A terminator in front goes when line breaks are dropped. -/
theorem dropBreaks_terminator {stop rest : Text} (ends : Terminates stop rest) :
    dropBreaks (stop ++ rest) = dropBreaks rest := by
  cases ends <;> simp [dropBreaks, isBreak]

/-- Blank lines are dropped with or without the line breaks in front. -/
theorem dropBlankLines_dropBreaks (text : Text) :
    dropBlankLines (dropBreaks text) = dropBlankLines text := by
  induction size : text.length using Nat.strongRecOn generalizing text with
  | ind size ih =>
    rcases exists_terminated text with unbroken | ⟨body, stop, rest, rfl, unbroken, ends⟩
    · rw [dropBreaks_of_head]
      intro c head
      exact unbroken c (List.mem_of_head? head)
    · cases body with
      | nil =>
        rw [List.nil_append, dropBreaks_terminator ends, dropBlankLines_terminator ends]
        refine ih rest.length ?_ rest rfl
        rw [← size]
        cases ends <;> simp +arith
      | cons c body =>
        rw [dropBreaks_of_head]
        intro d head
        obtain rfl : c = d := by simpa using head
        exact unbroken c List.mem_cons_self

end Text

/-- A blank line belongs to every run of line comments. -/
theorem Comment.inRun_of_isBlankLine {line : Text} (marker : Text)
    (blank : Text.isBlankLine line = true) : Comment.inRun marker line = true := by
  unfold Text.isBlankLine at blank
  simp [Comment.inRun, blank]

/-- A text that starts with the header has no blank line in front. -/
theorem dropBlankLines_of_header {style : Style} {text : Text} (starts : style.header <+: text) :
    Text.dropBlankLines text = text := by
  obtain ⟨c, more, header, -, plain⟩ := Style.header_start style
  have lead : [c] <+: style.header := by
    rw [header]
    exact List.prefix_append [c] more
  exact Text.dropBlankLines_of_head (Text.not_isBlankLine_of_plain plain (lead.trans starts))

/-- The header of the sharp style starts with a line comment. -/
theorem marker_prefix_header : Comment.marker .sharp <+: Style.sharp.header := by
  obtain ⟨more, header⟩ := Style.header_sharp
  rw [header]
  exact List.prefix_append ['#'] (' ' :: more)

/-- The header of the block style is an opener with a closer somewhere behind it. -/
theorem exists_closer_header :
    ∃ body, Style.block.header = "/*".toList ++ body ∧ "*/".toList <:+: body := by
  have found : (Text.splitAt? "*/".toList (Style.block.header.drop 2)).isSome = true := by
    decide +kernel
  obtain ⟨parts, cut⟩ := Option.isSome_iff_exists.mp found
  obtain ⟨body, header⟩ := Style.header_block
  rw [header] at cut
  exact ⟨body, header, parts.1, parts.2, (Text.eq_of_splitAt? cut).symm⟩

/-- The header is a leading comment of every text that starts with it. -/
theorem exists_leads_of_header {style : Style} {text : Text} (starts : style.header <+: text) :
    ∃ comment after, text = comment ++ after ∧ Comment.Leads style comment after := by
  cases style with
  | block =>
    obtain ⟨body, header, closes⟩ := exists_closer_header
    obtain ⟨more, rfl⟩ := starts
    have inside : "*/".toList <:+: body ++ more :=
      closes.trans (List.prefix_append body more).isInfix
    rcases Comment.stripClosed_cases "*/".toList (body ++ more) [] with
      ⟨inner, after, parts, first, -⟩ | ⟨missing, -⟩
    · refine ⟨"/*".toList ++ inner ++ "*/".toList, after, ?_, .closed after ?_ first⟩
      · rw [header, List.append_assoc, parts]
        simp only [List.append_assoc]
      · simp [Comment.delimiters]
    · exact absurd inside missing
  | sharp =>
    have marked : ['#'] <+: text := marker_prefix_header.trans starts
    have filled : text ≠ [] := by
      rintro rfl
      exact absurd (List.prefix_nil.mp marked) (by simp)
    have counts := (Comment.inRun_firstLine (by decide) marked
      (Comment.unbroken_marker .sharp)).mpr marked
    obtain ⟨run, after, whole, lines, -⟩ := Comment.exists_run (Text.head?_lines filled) counts
    exact ⟨run.flatten, after, whole, .run lines (fun other => by contradiction)⟩

/-- Whether a text starts with the header, as it is or below blank lines. -/
def StartsWithHeader (style : Style) (text : Text) : Prop :=
  style.header <+: text ∨ style.header <+: Text.dropBlankLines text

/-- The header below no blank line is a case of the header below some. -/
theorem startsWithHeader_iff {style : Style} {text : Text} :
    StartsWithHeader style text ↔ style.header <+: Text.dropBlankLines text := by
  constructor
  · rintro (starts | below)
    · rw [dropBlankLines_of_header starts]
      exact starts
    · exact below
  · exact .inr

/-- Whether a text without line breaks in front holds a header that stripping does not reach. -/
inductive Hides : Style → Text → Prop where
  /-- Below a closed comment, and below blank lines if there are some. -/
  | closed {style : Style} {opener closer inner after : Text}
      (kind : (opener, closer) ∈ Comment.delimiters style) (first : Text.IsFirst closer inner)
      (below : style.header <+: Text.dropBlankLines after) :
      Hides style (opener ++ inner ++ closer ++ after)
  /-- Directly below a run of line comments of the block style. -/
  | run {run : List Text} {after : Text} (lines : Comment.IsRun (Comment.marker .block) run after)
      (start : Comment.marker .block <+: run.flatten) (below : Style.block.header <+: after) :
      Hides .block (run.flatten ++ after)
  /-- In the block style, below a line of white space. -/
  | blank {text line : Text} (first : (Text.lines text).head? = some line)
      (white : Text.isBlankLine line = true)
      (below : Style.block.header <+: Text.dropBlankLines text) : Hides .block text

/-- Below a run of line comments there is no blank line. -/
theorem dropBlankLines_of_isRun {marker after : Text} {run : List Text}
    (lines : Comment.IsRun marker run after) : Text.dropBlankLines after = after := by
  apply Text.dropBlankLines_of_head
  intro line head
  cases white : Text.isBlankLine line with
  | false => rfl
  | true =>
    have counts := Comment.inRun_of_isBlankLine marker white
    rw [lines.longest line head] at counts
    contradiction

/-- The header of the sharp style is no line behind a run of line comments. -/
theorem not_header_prefix_of_isRun {after : Text} {run : List Text}
    (lines : Comment.IsRun (Comment.marker .sharp) run after) :
    ¬ Style.sharp.header <+: after := by
  intro starts
  have marked : ['#'] <+: after := marker_prefix_header.trans starts
  have filled : after ≠ [] := by
    rintro rfl
    exact absurd (List.prefix_nil.mp marked) (by simp)
  have counts := (Comment.inRun_firstLine (by decide) marked
    (Comment.unbroken_marker .sharp)).mpr marked
  rw [lines.longest _ (Text.head?_lines filled)] at counts
  contradiction

/-- A header below blank lines that stripping leaves whole stands below a line of white space, and
only in the block style. -/
theorem hides_of_whole {style : Style} {text rest : Text}
    (stripped : Comment.strip style rest = .whole text) (start : Text.dropBreaks rest = text)
    (below : style.header <+: Text.dropBlankLines text) : Hides style text := by
  have bare {comment after : Text} (whole : text = comment ++ after) :
      ¬ Comment.Leads style comment after :=
    Comment.not_leads_of_strip stripped (start.trans whole)
  cases head : (Text.lines text).head? with
  | none =>
    -- There is no line at all, so there is no header.
    have same : Text.dropBlankLines text = text := Text.dropBlankLines_of_head (by simp [head])
    rw [same] at below
    obtain ⟨comment, after, whole, leads⟩ := exists_leads_of_header below
    exact absurd leads (bare whole)
  | some line =>
    cases white : Text.isBlankLine line with
    | false =>
      have same : Text.dropBlankLines text = text :=
        Text.dropBlankLines_of_head (by simp [head, white])
      rw [same] at below
      obtain ⟨comment, after, whole, leads⟩ := exists_leads_of_header below
      exact absurd leads (bare whole)
    | true =>
      cases style with
      | block => exact .blank head white below
      | sharp =>
        obtain ⟨run, after, whole, lines, -⟩ :=
          Comment.exists_run head (Comment.inRun_of_isBlankLine _ white)
        exact absurd (.run lines (fun other => by contradiction)) (bare whole)

/-- White space in front of a text is no leading comment of the block style. -/
theorem strip_of_blank {text rest line : Text} (start : Text.dropBreaks rest = text)
    (first : (Text.lines text).head? = some line) (white : Text.isBlankLine line = true) :
    Comment.strip .block rest = .whole text := by
  rcases Comment.strip_cases .block rest with ⟨comment, after, whole, leads, -⟩ | stripped
  · have slash : ['/'] <+: comment := by
      cases leads with
      | @closed opener closer inner _ kind _ =>
        obtain ⟨rfl, rfl⟩ : opener = "/*".toList ∧ closer = "*/".toList := by
          simpa [Comment.delimiters] using kind
        exact ⟨'*' :: (inner ++ "*/".toList), by simp⟩
      | run _ begins => exact (List.prefix_append ['/'] ['/']).trans (begins rfl)
    have starts : ['/'] <+: text := by
      rw [← start, whole]
      exact slash.trans (List.prefix_append comment after)
    have other := Text.not_isBlankLine_of_plain (by decide) starts line first
    rw [white] at other
    contradiction
  · rw [stripped, start]

/-- The body of a text starts with the header exactly when the text behind the preamble hides
one. -/
theorem startsWithHeader_bodyOf_iff (style : Style) (rest : Text) :
    StartsWithHeader style (bodyOf style rest) ↔ Hides style (Text.dropBreaks rest) := by
  rw [startsWithHeader_iff]
  have body {left : Stripped} (stripped : Comment.strip style rest = left) :
      Text.dropBlankLines (bodyOf style rest) = Text.dropBlankLines left.rest := by
    unfold bodyOf
    rw [stripped, Text.dropBlankLines_dropBreaks]
  have behind {after : Text} (stripped : Comment.strip style rest = .after after) :
      Text.dropBlankLines (bodyOf style rest) = Text.dropBlankLines after :=
    (body stripped).trans (Text.dropBlankLines_dropBreaks after)
  constructor
  · intro below
    rcases Comment.strip_cases style rest with ⟨comment, after, start, leads, stripped⟩ | stripped
    · rw [behind stripped] at below
      rw [start]
      cases leads with
      | closed _ kind first => exact .closed kind first below
      | run lines begins =>
        rw [dropBlankLines_of_isRun lines] at below
        cases style with
        | block => exact .run lines (begins rfl) below
        | sharp => exact absurd below (not_header_prefix_of_isRun lines)
    · rw [body stripped] at below
      exact hides_of_whole stripped rfl below
  · intro hides
    generalize start : Text.dropBreaks rest = text at hides
    cases hides with
    | closed kind first below =>
      rw [behind (Comment.strip_of_leads start (.closed _ kind first))]
      exact below
    | run lines begins below =>
      rw [behind (Comment.strip_of_leads start (.run lines fun _ => begins)),
        dropBlankLines_of_isRun lines]
      exact below
    | blank first white below =>
      rw [body (strip_of_blank start first white)]
      exact below

/-- The body of a normal form starts with a second header exactly when the text hid one. -/
theorem second_header_iff {style : Style} {text new : Text}
    (made : normalize style text = some new) :
    ∃ body, new = (Preamble.split style text).1.text ++ style.header ++ body ∧
      (StartsWithHeader style body ↔
        Hides style (Text.dropBreaks (Preamble.split style text).2)) := by
  obtain ⟨-, whole⟩ := normalize_eq_some_iff.mp made
  exact ⟨_, whole, startsWithHeader_bodyOf_iff style _⟩

/-- A header below an old comment stays below the new one. -/
theorem normalize_two_headers :
    normalize .block ("/* old */\n".toList ++ Style.block.header ++ "int x;\n".toList) =
        some (Style.block.header ++ (Style.block.header ++ "int x;\n".toList)) ∧
      StartsWithHeader .block (Style.block.header ++ "int x;\n".toList) :=
  ⟨by decide +kernel, .inl (List.prefix_append _ _)⟩

/-- A header below a string stays below the new one too, and this is the way that is counted. -/
theorem second_header_iff_string :
    normalize .sharp ("'''old'''\n".toList ++ Style.sharp.header) =
        some (Style.sharp.header ++ Style.sharp.header) ∧
      ∃ body, Style.sharp.header ++ Style.sharp.header =
          (Preamble.split .sharp ("'''old'''\n".toList ++ Style.sharp.header)).1.text ++
            Style.sharp.header ++ body ∧
        (StartsWithHeader .sharp body ↔ Hides .sharp (Text.dropBreaks
          (Preamble.split .sharp ("'''old'''\n".toList ++ Style.sharp.header)).2)) := by
  have made : normalize .sharp ("'''old'''\n".toList ++ Style.sharp.header) =
      some (Style.sharp.header ++ Style.sharp.header) := by decide +kernel
  exact ⟨made, second_header_iff made⟩

end LicenseHeader
