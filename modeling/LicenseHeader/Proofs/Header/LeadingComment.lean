import LicenseHeader.Header.Comment
import LicenseHeader.Proofs.Text.Lines
import LicenseHeader.Proofs.Text.Occurrence

/-!
# What a leading comment is

`Comment.Leads` says which part of a text is its leading comment: a closed comment of the style up
to its first closer, or the longest run of whole lines that are blank or line comments. Stripping
takes off such a comment wherever there is one (`Comment.strip_of_leads`) and otherwise nothing but
line breaks (`Comment.strip_cases`).
-/

namespace LicenseHeader.Comment

/-- What opens a closed comment of a style, and what closes it. -/
def delimiters : Style → List (Text × Text)
  | .block => [("/*".toList, "*/".toList)]
  | .sharp => tripleQuotes.map fun quote => (quote, quote)

/-- What a line comment of a style starts with. -/
def marker : Style → Text
  | .block => "//".toList
  | .sharp => "#".toList

/-- Whether lines are the longest run of blank lines and line comments in front of a text. -/
structure IsRun (marker : Text) (run : List Text) (after : Text) : Prop where
  /-- There is a line in the run. -/
  filled : run ≠ []
  /-- Every line is blank or a line comment. -/
  each : ∀ line ∈ run, inRun marker line = true
  /-- The lines are whole lines of the text. -/
  whole : Text.lines (run.flatten ++ after) = run ++ Text.lines after
  /-- The line behind them is neither blank nor a line comment. -/
  longest : ∀ line ∈ (Text.lines after).head?, inRun marker line = false

/-- Whether `comment` is the leading comment of the text that consists of it and `after`. -/
inductive Leads (style : Style) : Text → Text → Prop where
  /-- A closed comment, up to its first closer. -/
  | closed {opener closer inner : Text} (after : Text)
      (kind : (opener, closer) ∈ delimiters style) (first : Text.IsFirst closer inner) :
      Leads style (opener ++ inner ++ closer) after
  /-- A run of lines; in the block style a line comment has to come first. -/
  | run {run : List Text} {after : Text} (lines : IsRun (marker style) run after)
      (start : style = .block → marker style <+: run.flatten) :
      Leads style run.flatten after

/-- A text whose first line is blank or a line comment starts with a run of lines. -/
theorem exists_run {marker text line : Text} (first : (Text.lines text).head? = some line)
    (counts : inRun marker line = true) :
    ∃ run after, text = run.flatten ++ after ∧ IsRun marker run after ∧
      stripRun marker text = .after after := by
  let lines := Text.lines text
  have split : lines.takeWhile (inRun marker) ++ lines.dropWhile (inRun marker) = lines :=
    List.takeWhile_append_dropWhile
  have filled : lines.takeWhile (inRun marker) ≠ [] := by
    cases whole : lines with
    | nil =>
      have none : lines.head? = none := by rw [whole]; rfl
      exact absurd (first.symm.trans none) (by simp)
    | cons head more =>
      obtain rfl : head = line := by
        have found : lines.head? = some head := by rw [whole]; rfl
        exact Option.some.inj (found.symm.trans first)
      simp [counts]
  have behind : Text.lines (lines.dropWhile (inRun marker)).flatten =
      lines.dropWhile (inRun marker) := Text.lines_flatten_of_append split.symm
  have text_eq : (lines.takeWhile (inRun marker)).flatten ++
      (lines.dropWhile (inRun marker)).flatten = text := by
    rw [← List.flatten_append, split]
    exact Text.flatten_lines text
  refine ⟨_, (lines.dropWhile (inRun marker)).flatten, text_eq.symm, ?_, ?_⟩
  · constructor
    · exact filled
    · intro line inside
      exact List.all_eq_true.mp List.all_takeWhile line inside
    · rw [text_eq, behind]
      exact split.symm
    · intro line next
      rw [behind] at next
      have stops := List.head?_dropWhile_not (inRun marker) lines
      rw [Option.mem_def.mp next] at stops
      simpa using stops
  · unfold stripRun
    rw [if_neg (by simpa using filled)]

/-- A text whose first line, if any, is neither blank nor a line comment has no run of lines. -/
theorem stripRun_of_head {marker text : Text}
    (other : ∀ line ∈ (Text.lines text).head?, inRun marker line = false) :
    stripRun marker text = .whole text := by
  unfold stripRun
  cases whole : Text.lines text with
  | nil => rfl
  | cons line more =>
    rw [whole] at other
    have stops : inRun marker line = false := other line rfl
    simp [stops]

/-- A run of lines is what stripping takes off. -/
theorem stripRun_of_isRun {marker after : Text} {run : List Text} (lines : IsRun marker run after) :
    stripRun marker (run.flatten ++ after) = .after after := by
  have taken : (run ++ Text.lines after).takeWhile (inRun marker) = run := by
    rw [List.takeWhile_append_of_pos lines.each]
    cases whole : Text.lines after with
    | nil => simp
    | cons line more =>
      have stops : inRun marker line = false := lines.longest line (by rw [whole]; rfl)
      simp [stops]
  have left : (run ++ Text.lines after).dropWhile (inRun marker) = Text.lines after := by
    have split := List.takeWhile_append_dropWhile (p := inRun marker) (l := run ++ Text.lines after)
    rw [taken] at split
    exact List.append_cancel_left split
  unfold stripRun
  simp only [lines.whole, taken, left]
  rw [if_neg (by simpa using lines.filled), Text.flatten_lines]

/-- A closed comment is what stripping takes off behind its opener. -/
theorem stripClosed_of_isFirst {closer inner : Text} (after text : Text)
    (first : Text.IsFirst closer inner) :
    stripClosed closer (inner ++ closer ++ after) text = .after after := by
  unfold stripClosed
  rw [Text.splitAt?_of_isFirst after first]

/-- Behind an opener a comment is closed, or it is left whole because no closer follows. -/
theorem stripClosed_cases (closer body text : Text) :
    (∃ inner after, body = inner ++ closer ++ after ∧ Text.IsFirst closer inner ∧
        stripClosed closer body text = .after after) ∨
      (¬ closer <:+: body ∧ stripClosed closer body text = .whole text) := by
  unfold stripClosed
  cases found : Text.splitAt? closer body with
  | none => exact .inr ⟨Text.splitAt?_eq_none_iff.mp found, rfl⟩
  | some parts =>
    obtain ⟨whole, first⟩ := Text.splitAt?_eq_some_iff.mp found
    exact .inl ⟨parts.1, parts.2, whole, first, rfl⟩

/-- White space in front of a line tells nothing about a text that starts with something else. -/
theorem inRun_of_plain {marker start line : Text} {c : Char} (plain : Text.isBlank c = false)
    (starts : c :: start <+: line) : inRun marker line = marker.isPrefixOf line := by
  obtain ⟨rest, rfl⟩ := starts
  simp [inRun, Text.dropBlanks, plain]

/-- The first line of a text that starts with something else than white space is in a run exactly
when the text starts with the marker. -/
theorem inRun_firstLine {marker text : Text} {c : Char} (plain : Text.isBlank c = false)
    (starts : [c] <+: text) (unbroken : Text.Unbroken marker) :
    inRun marker (Text.splitFirstLine text).1 = true ↔ marker <+: text := by
  have apart := Text.isBreak_of_plain plain
  have first : [c] <+: (Text.splitFirstLine text).1 :=
    Text.prefix_firstLine (by simpa [Text.Unbroken] using apart) starts
  rw [inRun_of_plain plain first, List.isPrefixOf_iff_prefix]
  constructor
  · intro inside
    exact inside.trans ⟨_, Text.splitFirstLine_append text⟩
  · intro inside
    exact Text.prefix_firstLine unbroken inside

/-- The markers hold no line breaks. -/
theorem unbroken_marker (style : Style) : Text.Unbroken (marker style) := by
  intro c inside
  cases style with
  | block =>
    obtain rfl : c = '/' := by simpa [marker] using inside
    decide
  | sharp =>
    obtain rfl : c = '#' := by simpa [marker] using inside
    decide

/-- An empty text needs no case of its own. -/
theorem strip_eq (style : Style) (text : Text) :
    strip style text =
      match style with
      | .block => stripBlock (Text.dropBreaks text)
      | .sharp => stripSharp (Text.dropBreaks text) := by
  unfold strip
  simp only
  split
  · rename_i empty
    rw [List.isEmpty_iff.mp empty]
    cases style <;> rfl
  · rfl

/-- The first line of a run is the first line of the text. -/
theorem IsRun.firstLine_prefix {marker after : Text} {run : List Text}
    (lines : IsRun marker run after) :
    (Text.splitFirstLine (run.flatten ++ after)).1 <+: run.flatten := by
  unfold Text.splitFirstLine
  rw [lines.whole]
  cases run with
  | nil => exact absurd rfl lines.filled
  | cons line more => exact List.prefix_append line more.flatten

/-- The first line of a run is blank or a line comment. -/
theorem IsRun.inRun_firstLine {marker after : Text} {run : List Text}
    (lines : IsRun marker run after) :
    inRun marker (Text.splitFirstLine (run.flatten ++ after)).1 = true := by
  unfold Text.splitFirstLine
  rw [lines.whole]
  cases run with
  | nil => exact absurd rfl lines.filled
  | cons line more => exact lines.each line List.mem_cons_self

/-- Stripping in the block style takes off a leading comment or nothing. -/
theorem stripBlock_cases (start : Text) :
    (∃ comment after, start = comment ++ after ∧ Leads .block comment after ∧
        stripBlock start = .after after) ∨ stripBlock start = .whole start := by
  unfold stripBlock
  split
  · rename_i opens
    obtain ⟨body, rfl⟩ := List.isPrefixOf_iff_prefix.mp opens
    rcases stripClosed_cases "*/".toList body ("/*".toList ++ body) with
      ⟨inner, after, rfl, first, closed⟩ | ⟨-, unclosed⟩
    · left
      refine ⟨"/*".toList ++ inner ++ "*/".toList, after, ?_, ?_, closed⟩
      · simp only [List.append_assoc]
      · exact .closed after (by simp [delimiters]) first
    · exact .inr unclosed
  · split
    · rename_i begins
      left
      have starts : marker .block <+: start := List.isPrefixOf_iff_prefix.mp begins
      have slash : ['/'] <+: start := (List.prefix_append ['/'] ['/']).trans starts
      have filled : start ≠ [] := by
        rintro rfl
        exact absurd slash (by decide)
      have counts := (inRun_firstLine (by decide) slash (unbroken_marker .block)).mpr starts
      obtain ⟨run, after, rfl, lines, stripped⟩ := exists_run (Text.head?_lines filled) counts
      refine ⟨run.flatten, after, rfl, .run lines fun _ => ?_, stripped⟩
      exact (Text.prefix_firstLine (unbroken_marker .block) starts).trans lines.firstLine_prefix
    · exact .inr rfl

/-- Stripping in the sharp style takes off a leading comment or nothing. -/
theorem stripSharp_cases (start : Text) :
    (∃ comment after, start = comment ++ after ∧ Leads .sharp comment after ∧
        stripSharp start = .after after) ∨ stripSharp start = .whole start := by
  unfold stripSharp
  cases found : tripleQuotes.find? (·.isPrefixOf start) with
  | some quote =>
    have known := List.mem_of_find?_eq_some found
    have opens : quote.isPrefixOf start = true :=
      List.find?_some (p := fun quote : Text => quote.isPrefixOf start) found
    obtain ⟨body, rfl⟩ := List.isPrefixOf_iff_prefix.mp opens
    dsimp only
    rw [List.drop_left]
    rcases stripClosed_cases quote body (quote ++ body) with
      ⟨inner, after, rfl, first, closed⟩ | ⟨-, unclosed⟩
    · left
      refine ⟨quote ++ inner ++ quote, after, ?_, ?_, closed⟩
      · simp only [List.append_assoc]
      · exact .closed after (List.mem_map.mpr ⟨quote, known, rfl⟩) first
    · exact .inr unclosed
  | none =>
    cases head : (Text.lines start).head? with
    | none =>
      right
      exact stripRun_of_head (by simp [head])
    | some line =>
      cases counts : inRun (marker .sharp) line with
      | true =>
        left
        obtain ⟨run, after, rfl, lines, stripped⟩ := exists_run head counts
        exact ⟨run.flatten, after, rfl, .run lines (fun other => by contradiction), stripped⟩
      | false =>
        right
        apply stripRun_of_head
        intro first same
        rw [head] at same
        obtain rfl := Option.some.inj same
        exact counts

/-- Stripping takes off the line breaks in front and then a leading comment or nothing. -/
theorem strip_cases (style : Style) (text : Text) :
    (∃ comment after, Text.dropBreaks text = comment ++ after ∧ Leads style comment after ∧
        strip style text = .after after) ∨
      strip style text = .whole (Text.dropBreaks text) := by
  rw [strip_eq]
  cases style with
  | block => exact stripBlock_cases _
  | sharp => exact stripSharp_cases _

/-- A quote starts with a character that is neither white space nor a number sign. -/
theorem exists_of_mem_tripleQuotes {quote : Text} (known : quote ∈ tripleQuotes) :
    ∃ c, quote = [c, c, c] ∧ Text.isBlank c = false ∧ c ≠ '#' := by
  have either : quote = "\"\"\"".toList ∨ quote = "'''".toList := by
    simpa [tripleQuotes] using known
  rcases either with rfl | rfl
  · exact ⟨'"', rfl, by decide, by decide⟩
  · exact ⟨'\'', rfl, by decide, by decide⟩

/-- The quote that a text starts with is the one that is found. -/
theorem find?_tripleQuotes {quote : Text} (known : quote ∈ tripleQuotes) (body : Text) :
    tripleQuotes.find? (·.isPrefixOf (quote ++ body)) = some quote := by
  have either : quote = "\"\"\"".toList ∨ quote = "'''".toList := by
    simpa [tripleQuotes] using known
  rcases either with rfl | rfl <;> rfl

/-- A text that starts with a run of line comments of the sharp style starts with no quote. -/
theorem find?_tripleQuotes_of_isRun {run : List Text} {after : Text}
    (lines : IsRun (marker .sharp) run after) :
    tripleQuotes.find? (·.isPrefixOf (run.flatten ++ after)) = none := by
  rw [List.find?_eq_none]
  intro quote known opens
  obtain ⟨c, rfl, plain, other⟩ := exists_of_mem_tripleQuotes known
  have starts : [c] <+: run.flatten ++ after :=
    (List.prefix_append [c] [c, c]).trans (List.isPrefixOf_iff_prefix.mp opens)
  have marked := (inRun_firstLine plain starts (unbroken_marker .sharp)).mp lines.inRun_firstLine
  obtain ⟨rest, whole⟩ := starts
  rw [← whole] at marked
  exact other (List.cons_prefix_cons.mp marked).1.symm

/-- A leading comment is what stripping takes off. -/
theorem strip_of_leads {style : Style} {text comment after : Text}
    (start : Text.dropBreaks text = comment ++ after) (leads : Leads style comment after) :
    strip style text = .after after := by
  rw [strip_eq, start]
  cases leads with
  | @closed opener closer inner _ kind first =>
    cases style with
    | block =>
      obtain ⟨rfl, rfl⟩ : opener = "/*".toList ∧ closer = "*/".toList := by
        simpa [delimiters] using kind
      exact stripClosed_of_isFirst after _ first
    | sharp =>
      obtain ⟨quote, known, same⟩ := List.mem_map.mp kind
      obtain ⟨rfl, rfl⟩ := Prod.mk.inj same
      simp only [stripSharp, List.append_assoc, find?_tripleQuotes known]
      rw [List.drop_left, ← List.append_assoc]
      exact stripClosed_of_isFirst after _ first
  | @run run _ lines begins =>
    cases style with
    | block =>
      obtain ⟨rest, whole⟩ := (begins rfl).trans (List.prefix_append _ after)
      show stripBlock (run.flatten ++ after) = _
      have stripped := stripRun_of_isRun lines
      rw [← whole] at stripped ⊢
      exact stripped
    | sharp =>
      show stripSharp (run.flatten ++ after) = _
      unfold stripSharp
      rw [find?_tripleQuotes_of_isRun lines]
      exact stripRun_of_isRun lines

/-- A text that stripping leaves whole has no leading comment. -/
theorem not_leads_of_strip {style : Style} {text rest comment after : Text}
    (stripped : strip style text = .whole rest) (start : Text.dropBreaks text = comment ++ after) :
    ¬ Leads style comment after := by
  intro leads
  rw [strip_of_leads start leads] at stripped
  have flags : true = false := congrArg Stripped.removed stripped
  contradiction

end LicenseHeader.Comment
