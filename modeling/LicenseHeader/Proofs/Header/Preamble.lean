import LicenseHeader.Header.Preamble
import LicenseHeader.Proofs.Text.Lines

/-!
# Splitting a rebuilt text

The preamble of a text and what follows it are the text (`Preamble.split_append`), and a text that
was rebuilt around the canonical header is split where it was put together
(`Preamble.split_compose`, `Preamble.split_recovers`). For this the header has to start neither with
a byte order mark nor like an interpreter line, and not with the line feed that would complete a
terminator in front of it.
-/

namespace LicenseHeader

/-- A text that starts with two known characters. -/
theorem exists_of_take_two {a b : Char} {text : Text} (start : text.take 2 = [a, b]) :
    ∃ more, text = a :: b :: more := by
  have whole := List.take_append_drop 2 text
  rw [start] at whole
  exact ⟨text.drop 2, whole.symm⟩

/-- How the header of the block style starts. -/
theorem Style.header_block : ∃ more, Style.block.header = '/' :: '*' :: more :=
  exists_of_take_two (by decide +kernel)

/-- How the header of the sharp style starts. -/
theorem Style.header_sharp : ∃ more, Style.sharp.header = '#' :: ' ' :: more :=
  exists_of_take_two (by decide +kernel)

/-- The first character of a header is neither a byte order mark nor white space. -/
theorem Style.header_start (style : Style) :
    ∃ c more, style.header = c :: more ∧ c ≠ Preamble.byteOrderMark ∧ Text.isBlank c = false := by
  cases style with
  | block =>
    obtain ⟨more, header⟩ := Style.header_block
    exact ⟨_, _, header, by decide, by decide⟩
  | sharp =>
    obtain ⟨more, header⟩ := Style.header_sharp
    exact ⟨_, _, header, by decide, by decide⟩

namespace Preamble

/-- A byte order mark and what follows it are the text. -/
theorem splitMark_append (text : Text) :
    (if (splitMark text).1 then [byteOrderMark] else []) ++ (splitMark text).2 = text := by
  cases text with
  | nil => rfl
  | cons c rest =>
    by_cases mark : c = byteOrderMark
    · simp [splitMark, mark]
    · simp [splitMark, mark]

/-- A byte order mark is taken off when there is one, and nothing else is. -/
theorem splitMark_of_head {marked : Bool} {text : Text} (plain : text.head? ≠ some byteOrderMark) :
    splitMark ((if marked then [byteOrderMark] else []) ++ text) = (marked, text) := by
  cases marked with
  | true => simp [splitMark]
  | false =>
    cases text with
    | nil => rfl
    | cons c rest =>
      have other : c ≠ byteOrderMark := by simpa using plain
      simp [splitMark, other]

/-- An interpreter line and what follows it are the text. -/
theorem splitInterpreter_append (style : Style) (text : Text) :
    (splitInterpreter style text).1 ++ (splitInterpreter style text).2 = text := by
  unfold splitInterpreter
  split
  · exact Text.splitFirstLine_append text
  · rfl

/-- The preamble as it was written and what follows it are the text. -/
theorem split_append (style : Style) (text : Text) :
    (if (split style text).1.mark then [byteOrderMark] else []) ++
      ((split style text).1.interpreter ++ (split style text).2) = text := by
  show (if (splitMark text).1 then [byteOrderMark] else []) ++
      ((splitInterpreter style (splitMark text).2).1 ++
        (splitInterpreter style (splitMark text).2).2) = text
  rw [splitInterpreter_append, splitMark_append]

/-- A line without a terminator gets a line feed. -/
theorem terminated_of_unbroken {line : Text} (filled : line ≠ []) (unbroken : Text.Unbroken line) :
    terminated line = line ++ ['\n'] := by
  have last := List.getLast?_eq_some_getLast filled
  have apart := unbroken _ (List.getLast_mem filled)
  simp [terminated, last, apart]

/-- A line with a terminator stays as it is. -/
theorem terminated_of_terminates {body stop rest : Text} (ends : Text.Terminates stop rest) :
    terminated (body ++ stop) = body ++ stop := by
  cases ends <;> simp [terminated, Text.isBreak]

/-- The first line of a text, with a terminator, is the first line of every text that it is put in
front of, unless this starts with a line feed. -/
theorem splitFirstLine_terminated {text later : Text} (filled : (Text.splitFirstLine text).1 ≠ [])
    (apart : later.head? ≠ some '\n') :
    Text.splitFirstLine (terminated (Text.splitFirstLine text).1 ++ later) =
      (terminated (Text.splitFirstLine text).1, later) := by
  rcases Text.splitFirstLine_shape text with ⟨unbroken, -⟩ | ⟨body, stop, whole, unbroken, ends⟩
  · rw [terminated_of_unbroken filled unbroken]
    exact Text.splitFirstLine_append_terminator unbroken (.feed later)
  · rw [whole, terminated_of_terminates ends]
    exact Text.splitFirstLine_append_terminator unbroken (ends.before apart)

/-- A line is the start of itself with a terminator. -/
theorem prefix_terminated (line : Text) : line <+: terminated line := by
  unfold terminated
  split
  · exact List.prefix_rfl
  · split
    · exact List.prefix_rfl
    · exact List.prefix_append line ['\n']

/-- What an interpreter line starts with. -/
def interpreterSign : Text := "#!".toList

/-- A text has an interpreter line exactly when the style has such lines and the text starts like
one; it is then the first line of the text. -/
theorem splitInterpreter_cases (style : Style) (text : Text) :
    (splitInterpreter style text = ([], text) ∧ ¬ (style = .sharp ∧ interpreterSign <+: text)) ∨
      (splitInterpreter style text = Text.splitFirstLine text ∧ style = .sharp ∧
        interpreterSign <+: text) := by
  unfold splitInterpreter
  by_cases named : style = .sharp ∧ interpreterSign <+: text
  · right
    have starts : "#!".toList.isPrefixOf text = true := List.isPrefixOf_iff_prefix.mpr named.2
    rw [if_pos (by rw [named.1, starts]; rfl)]
    exact ⟨rfl, named⟩
  · left
    rw [if_neg]
    · exact ⟨rfl, named⟩
    · intro both
      rw [Bool.and_eq_true, decide_eq_true_eq] at both
      exact named ⟨both.1, List.isPrefixOf_iff_prefix.mp both.2⟩

/-- The first line of a text that starts like an interpreter line starts like one. -/
theorem sign_prefix_firstLine {text : Text} (starts : interpreterSign <+: text) :
    interpreterSign <+: (Text.splitFirstLine text).1 := by
  apply Text.prefix_firstLine _ starts
  intro c inside
  have either : c = '#' ∨ c = '!' := by simpa [interpreterSign] using inside
  rcases either with rfl | rfl <;> decide

/-- The header is no interpreter line. -/
theorem not_sign_prefix_header (style : Style) (body : Text) :
    ¬ (style = .sharp ∧ interpreterSign <+: style.header ++ body) := by
  rintro ⟨rfl, starts⟩
  obtain ⟨more, header⟩ := Style.header_sharp
  rw [header] at starts
  have second := List.cons_prefix_cons.mp (List.cons_prefix_cons.mp starts).2
  exact absurd second.1 (by decide)

/-- Whether `mark` and `interpreter` are what a text has in front, and `rest` what follows. -/
structure Fronts (style : Style) (text mark interpreter rest : Text) : Prop where
  /-- Nothing is lost and nothing is moved. -/
  whole : text = mark ++ interpreter ++ rest
  /-- One byte order mark counts, when the text starts with one. -/
  marked : mark = if text.head? = some byteOrderMark then [byteOrderMark] else []
  /-- The first line after it counts, when the style has such lines and it starts like one. -/
  named : if style = .sharp ∧ interpreterSign <+: interpreter ++ rest then
      (Text.lines (interpreter ++ rest)).head? = some interpreter
    else interpreter = []

/-- Whether `feed` completes an interpreter line in front of some text. -/
inductive Completes : Text → Text → Text → Prop where
  /-- No line needs nothing. -/
  | absent (rest : Text) : Completes [] rest []
  /-- A line without a terminator needs a line feed. -/
  | open {line : Text} (rest : Text) (filled : line ≠ []) (unbroken : Text.Unbroken line) :
      Completes line rest ['\n']
  /-- A line with a terminator needs nothing. -/
  | closed {body stop rest : Text} (unbroken : Text.Unbroken body)
      (ends : Text.Terminates stop rest) : Completes (body ++ stop) rest []

/-- What a split takes off is what a text has in front. -/
theorem fronts_split (style : Style) (text : Text) :
    Fronts style text (if (split style text).1.mark then [byteOrderMark] else [])
      (split style text).1.interpreter (split style text).2 := by
  have behind := splitInterpreter_append style (splitMark text).2
  constructor
  · rw [List.append_assoc, split_append]
  · show (if (splitMark text).1 then [byteOrderMark] else []) = _
    cases text with
    | nil => rfl
    | cons c rest =>
      by_cases mark : c = byteOrderMark
      · simp [splitMark, mark]
      · simp [splitMark, mark]
  · show if style = .sharp ∧ interpreterSign <+: (splitInterpreter style (splitMark text).2).1 ++
        (splitInterpreter style (splitMark text).2).2 then _ else _
    rcases splitInterpreter_cases style (splitMark text).2 with ⟨none, other⟩ | ⟨first, named⟩
    · rw [behind, if_neg other]
      exact congrArg Prod.fst none
    · rw [if_pos (by rw [behind]; exact named)]
      show (Text.lines ((splitInterpreter style (splitMark text).2).1 ++
        (splitInterpreter style (splitMark text).2).2)).head? =
          some (splitInterpreter style (splitMark text).2).1
      rw [behind, first]
      apply Text.head?_lines
      rintro empty
      rw [empty] at named
      exact absurd named.2 (by decide)

/-- What a text has in front is one thing only. -/
theorem Fronts.unique {style : Style} {text mark interpreter rest mark' interpreter' rest' : Text}
    (fronts : Fronts style text mark interpreter rest)
    (also : Fronts style text mark' interpreter' rest') :
    mark = mark' ∧ interpreter = interpreter' ∧ rest = rest' := by
  have marks : mark = mark' := fronts.marked.trans also.marked.symm
  have behind : interpreter ++ rest = interpreter' ++ rest' := by
    have whole : mark ++ (interpreter ++ rest) = mark ++ (interpreter' ++ rest') := by
      rw [← List.append_assoc, ← fronts.whole, also.whole, marks, List.append_assoc]
    exact List.append_cancel_left whole
  have lines : interpreter = interpreter' := by
    have first := fronts.named
    have second := also.named
    rw [← behind] at second
    split at first
    · exact Option.some.inj (first.symm.trans (by rwa [if_pos ‹_›] at second))
    · rw [if_neg ‹_›] at second
      exact first.trans second.symm
  subst lines
  exact ⟨marks, rfl, List.append_cancel_left behind⟩

/-- The interpreter line of a text is completed by what a terminated one has at its end. -/
theorem completes_interpreter (style : Style) (text : Text) :
    ∃ feed, terminated (splitInterpreter style text).1 =
        (splitInterpreter style text).1 ++ feed ∧
      Completes (splitInterpreter style text).1 (splitInterpreter style text).2 feed := by
  rcases splitInterpreter_cases style text with ⟨none, -⟩ | ⟨first, -⟩
  · rw [none]
    exact ⟨[], rfl, .absent text⟩
  · rw [first]
    rcases Text.splitFirstLine_shape text with
      ⟨unbroken, last⟩ | ⟨body, stop, whole, unbroken, ends⟩
    · by_cases filled : (Text.splitFirstLine text).1 = []
      · rw [filled]
        exact ⟨[], rfl, .absent _⟩
      · exact ⟨['\n'], terminated_of_unbroken filled unbroken, .open _ filled unbroken⟩
    · rw [whole]
      refine ⟨[], ?_, .closed unbroken ends⟩
      rw [terminated_of_terminates ends, List.append_nil]

/-- A terminated interpreter line in front of the header is split off again. -/
theorem splitInterpreter_terminated (style : Style) (text body : Text) :
    splitInterpreter style
        (terminated (splitInterpreter style text).1 ++ (style.header ++ body)) =
      (terminated (splitInterpreter style text).1, style.header ++ body) := by
  rcases splitInterpreter_cases style text with ⟨none, -⟩ | ⟨first, sharp, starts⟩
  · rw [none]
    show splitInterpreter style (style.header ++ body) = ([], style.header ++ body)
    rcases splitInterpreter_cases style (style.header ++ body) with ⟨same, -⟩ | ⟨-, named⟩
    · exact same
    · exact absurd named (not_sign_prefix_header style body)
  · rw [first]
    have sign := sign_prefix_firstLine starts
    have filled : (Text.splitFirstLine text).1 ≠ [] := by
      intro empty
      rw [empty] at sign
      exact absurd sign (by decide)
    have again : interpreterSign <+:
        terminated (Text.splitFirstLine text).1 ++ (style.header ++ body) :=
      (sign.trans (prefix_terminated _)).trans (List.prefix_append _ _)
    obtain ⟨c, more, header, -, plain⟩ := Style.header_start style
    have noFeed : (style.header ++ body).head? ≠ some '\n' := by
      rw [header]
      simp only [List.cons_append, List.head?_cons, ne_eq, Option.some.injEq]
      rintro rfl
      exact absurd plain (by decide)
    rcases splitInterpreter_cases style
        (terminated (Text.splitFirstLine text).1 ++ (style.header ++ body)) with
      ⟨-, other⟩ | ⟨same, -⟩
    · exact absurd ⟨sharp, again⟩ other
    · rw [same, splitFirstLine_terminated filled noFeed]

/-- An interpreter line does not start with a byte order mark, and neither does the header. -/
theorem head?_terminated_ne_mark (style : Style) (text body : Text) :
    (terminated (splitInterpreter style text).1 ++ (style.header ++ body)).head? ≠
      some byteOrderMark := by
  rcases splitInterpreter_cases style text with ⟨none, -⟩ | ⟨first, -, starts⟩
  · rw [none]
    obtain ⟨c, more, header, plain, -⟩ := Style.header_start style
    show (style.header ++ body).head? ≠ some byteOrderMark
    rw [header]
    simpa using plain
  · rw [first]
    obtain ⟨rest, whole⟩ := (sign_prefix_firstLine starts).trans (prefix_terminated _)
    rw [← whole]
    show some '#' ≠ some byteOrderMark
    decide

/-- A text rebuilt around the header is split into the same byte order mark, the interpreter line
with a terminator, and the header with the body. -/
theorem split_compose (style : Style) (text body : Text) :
    split style ((split style text).1.compose style.header body) =
      (⟨(split style text).1.mark, terminated (split style text).1.interpreter⟩,
        style.header ++ body) := by
  have parts : (split style text).1.compose style.header body =
      (if (splitMark text).1 then [byteOrderMark] else []) ++
        (terminated (splitInterpreter style (splitMark text).2).1 ++ (style.header ++ body)) := by
    show ((if (splitMark text).1 then [byteOrderMark] else []) ++
      terminated (splitInterpreter style (splitMark text).2).1) ++ style.header ++ body = _
    simp only [List.append_assoc]
  rw [parts]
  unfold split
  rw [splitMark_of_head (head?_terminated_ne_mark style _ body)]
  simp only [splitInterpreter_terminated]

/-- What an interpreter line lacks in front of a header: a line feed, when there is such a line and
it ends in no line break. -/
def missingFeed (line : Text) : Text :=
  if line ≠ [] ∧ line.getLast? ≠ some '\n' ∧ line.getLast? ≠ some '\r' then ['\n'] else []

/-- A line with a terminator is the line and what it lacks. -/
theorem terminated_eq (line : Text) : terminated line = line ++ missingFeed line := by
  unfold terminated missingFeed
  cases last : line.getLast? with
  | none =>
    obtain rfl := List.getLast?_eq_none_iff.mp last
    rfl
  | some c =>
    have filled : line ≠ [] := by
      rintro rfl
      contradiction
    by_cases ends : Text.isBreak c = true
    · have either : c = '\n' ∨ c = '\r' := by simpa [Text.isBreak] using ends
      rcases either with rfl | rfl <;> simp [Text.isBreak]
    · have apart : c ≠ '\n' ∧ c ≠ '\r' := by simpa [Text.isBreak] using ends
      simp [filled, apart, ends]

/-- The parts into which a text is split make up the text, and around the header and any body they
are recovered by splitting again: the same byte order mark, the same interpreter line with the line
feed that it may lack, and the header with the body behind it. -/
theorem split_recovers (style : Style) (text body : Text) :
    let parts := split style text
    (if parts.1.mark then [byteOrderMark] else []) ++ parts.1.interpreter ++ parts.2 = text ∧
      split style (parts.1.compose style.header body) =
        (⟨parts.1.mark, parts.1.interpreter ++ missingFeed parts.1.interpreter⟩,
          style.header ++ body) := by
  intro parts
  constructor
  · rw [List.append_assoc]
    exact split_append style text
  · rw [← terminated_eq]
    exact split_compose style text body

/-- A lone return ends the interpreter line in front of a header as it did before. -/
example : split .sharp ((split .sharp "#!/bin/sh\rx".toList).1.compose Style.sharp.header
      "\n#!y".toList) =
    (⟨false, "#!/bin/sh\r".toList⟩, Style.sharp.header ++ "\n#!y".toList) := by
  decide +kernel

end Preamble

end LicenseHeader
