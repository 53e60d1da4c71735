import LicenseHeader.Proofs.Header.NormalForm

/-!
# Old headers converge

Texts that differ only in their old header and in the line breaks behind it have one normal form
(`normalForm_of_isOldHeader`). The line breaks may complete the terminator of the last line of an
old header, so that the lines of both are counted together (`Comment.leads_of_lines`).
-/

namespace LicenseHeader

namespace Text

/-- What can end a line. -/
def terminators : List Text := ["\n".toList, "\r\n".toList, "\r".toList]

/-- There are three terminators. -/
theorem mem_terminators_iff {stop : Text} :
    stop ∈ terminators ↔ stop = ['\n'] ∨ stop = ['\r', '\n'] ∨ stop = ['\r'] := by
  simp [terminators]

/-- A text that ends with a line break is cut at its end, unless a line feed follows. -/
theorem lines_append_of_break {front rest : Text} (ends : ∀ c ∈ front.getLast?, isBreak c = true)
    (apart : rest.head? ≠ some '\n') : lines (front ++ rest) = lines front ++ lines rest := by
  induction length : front.length using Nat.strongRecOn generalizing front with
  | ind size ih =>
    rcases exists_terminated front with unbroken | ⟨body, stop, more, rfl, unbroken, stops⟩
    · cases last : front.getLast? with
      | none =>
        obtain rfl := List.getLast?_eq_none_iff.mp last
        rfl
      | some c =>
        have plain := unbroken c (List.mem_of_getLast? last)
        rw [ends c last] at plain
        contradiction
    · have stops' : Terminates stop (more ++ rest) := by
        cases stops with
        | feed => exact .feed _
        | both => exact .both _
        | carriage _ first =>
          refine .carriage _ ?_
          cases more with
          | nil => exact apart
          | cons c more => exact first
      have shorter : more.length < size := by
        rw [← length, List.length_append, List.length_append]
        cases stops <;> simp +arith
      have ends' : ∀ c ∈ more.getLast?, isBreak c = true := by
        intro c last
        apply ends c
        rw [Option.mem_def, List.getLast?_append, Option.mem_def.mp last]
        rfl
      rw [List.append_assoc, lines_append unbroken stops', lines_append unbroken stops,
        ih more.length shorter ends' rfl, List.cons_append]

/-- A terminator in front of a text, perhaps together with the line feed that this starts with, ends
a line. -/
theorem exists_terminates {stop : Text} (known : stop ∈ terminators) (tail : Text) :
    Terminates stop tail ∨
      ∃ rest, tail = '\n' :: rest ∧ stop ++ ['\n'] = ['\r', '\n'] := by
  rcases mem_terminators_iff.mp known with rfl | rfl | rfl
  · exact .inl (.feed tail)
  · exact .inl (.both tail)
  · by_cases follows : tail.head? = some '\n'
    · obtain ⟨rest, rfl⟩ := List.head?_eq_some_iff.mp follows
      exact .inr ⟨rest, rfl, rfl⟩
    · exact .inl (.carriage tail follows)

end Text

namespace Comment

/-- Whether a line is a line comment with a terminator. There may be white space in front of the
marker. -/
inductive IsCommentLine (marker : Text) : Text → Prop where
  /-- White space, the marker, other characters, and a terminator. -/
  | mk {indent words stop : Text} (blank : ∀ c ∈ indent, Text.isBlank c = true)
      (unbroken : Text.Unbroken (indent ++ marker ++ words)) (known : stop ∈ Text.terminators) :
      IsCommentLine marker (indent ++ marker ++ words ++ stop)

/-- Whether a text is an old header of a style. -/
inductive IsOldHeader (style : Style) : Text → Prop where
  /-- A closed comment, up to its first closer. -/
  | closed {opener closer inner : Text} (kind : (opener, closer) ∈ delimiters style)
      (first : Text.IsFirst closer inner) : IsOldHeader style (opener ++ inner ++ closer)
  /-- Line comments with terminators, of which the first one starts with the marker. -/
  | run {lines : List Text} (each : ∀ line ∈ lines, IsCommentLine (marker style) line)
      (start : marker style <+: lines.flatten) : IsOldHeader style lines.flatten

/-- A marker starts with a character that is no white space. -/
theorem exists_marker (style : Style) :
    ∃ c more, marker style = c :: more ∧ Text.isBlank c = false := by
  cases style with
  | block => exact ⟨'/', ['/'], rfl, by decide⟩
  | sharp => exact ⟨'#', [], rfl, by decide⟩

/-- An opener starts with a character that is no white space. -/
theorem exists_opener {style : Style} {opener closer : Text}
    (kind : (opener, closer) ∈ delimiters style) :
    ∃ c more, opener = c :: more ∧ Text.isBlank c = false := by
  cases style with
  | block =>
    obtain ⟨rfl, -⟩ : opener = "/*".toList ∧ closer = "*/".toList := by
      simpa [delimiters] using kind
    exact ⟨'/', ['*'], rfl, by decide⟩
  | sharp =>
    obtain ⟨quote, known, same⟩ := List.mem_map.mp kind
    obtain ⟨rfl, -⟩ := Prod.mk.inj same
    obtain ⟨c, rfl, plain, -⟩ := exists_of_mem_tripleQuotes known
    exact ⟨c, [c, c], rfl, plain⟩

/-- White space, a marker and anything behind it count for a run. -/
theorem inRun_of_marker (style : Style) {indent : Text}
    (blank : ∀ c ∈ indent, Text.isBlank c = true) (behind : Text) :
    inRun (marker style) (indent ++ marker style ++ behind) = true := by
  obtain ⟨c, more, start, plain⟩ := exists_marker style
  have dropped : Text.dropBlanks (indent ++ marker style ++ behind) = marker style ++ behind := by
    unfold Text.dropBlanks
    rw [List.append_assoc, List.dropWhile_append_of_pos blank, start]
    simp [plain]
  unfold inRun
  rw [dropped, List.isPrefixOf_iff_prefix.mpr (List.prefix_append _ behind), Bool.or_true]

/-- Line breaks alone count for a run. -/
theorem inRun_of_breaks (marker : Text) {line : Text}
    (breaks : ∀ c ∈ line, Text.isBreak c = true) : inRun marker line = true := by
  have blank : ∀ c ∈ line, Text.isBlank c = true :=
    fun c member => Text.isBlank_of_isBreak (breaks c member)
  have dropped : Text.dropBlanks line = [] := by
    have behind : List.dropWhile Text.isBlank (line ++ []) = [] :=
      List.dropWhile_append_of_pos blank
    rwa [List.append_nil] at behind
  simp [inRun, dropped]

/-- A line comment in front of lines of a run makes lines of a run, also where a line feed completes
its terminator. -/
theorem inRun_lines_append {style : Style} {line tail : Text}
    (comment : IsCommentLine (marker style) line)
    (rest : ∀ other ∈ Text.lines tail, inRun (marker style) other = true) :
    ∀ other ∈ Text.lines (line ++ tail), inRun (marker style) other = true := by
  obtain @⟨indent, words, stop, blank, unbroken, known⟩ := comment
  have first (stop : Text) :
      inRun (marker style) (indent ++ marker style ++ words ++ stop) = true := by
    rw [List.append_assoc]
    exact inRun_of_marker style blank (words ++ stop)
  rcases Text.exists_terminates known tail with ends | ⟨after, rfl, both⟩
  · rw [Text.lines_append unbroken ends]
    exact List.forall_mem_cons.mpr ⟨first stop, rest⟩
  · -- The line feed that completes the terminator would be a line of its own without it.
    rw [← List.singleton_append, Text.lines_terminator (.feed after)] at rest
    have whole : indent ++ marker style ++ words ++ stop ++ '\n' :: after =
        indent ++ marker style ++ words ++ ['\r', '\n'] ++ after := by
      rw [← both]
      simp only [List.append_assoc, List.singleton_append]
    rw [whole, Text.lines_append unbroken (.both after)]
    exact List.forall_mem_cons.mpr ⟨first _, (List.forall_mem_cons.mp rest).2⟩

/-- The lines of line comments and of line breaks behind them count for a run. -/
theorem inRun_lines {style : Style} {lines : List Text} {gap : Text}
    (each : ∀ line ∈ lines, IsCommentLine (marker style) line)
    (breaks : ∀ c ∈ gap, Text.isBreak c = true) :
    ∀ line ∈ Text.lines (lines.flatten ++ gap), inRun (marker style) line = true := by
  induction lines with
  | nil =>
    intro line member
    apply inRun_of_breaks
    intro c inside
    apply breaks c
    rw [List.flatten_nil, List.nil_append] at member
    rw [← Text.flatten_lines gap]
    exact List.mem_flatten.mpr ⟨line, member, inside⟩
  | cons line more ih =>
    obtain ⟨first, others⟩ := List.forall_mem_cons.mp each
    rw [List.flatten_cons, List.append_assoc]
    exact inRun_lines_append first (ih others)

/-- Line comments and line breaks behind them end with a line break. -/
theorem isBreak_getLast? {marker : Text} {lines : List Text} {gap : Text}
    (each : ∀ line ∈ lines, IsCommentLine marker line)
    (breaks : ∀ c ∈ gap, Text.isBreak c = true) :
    ∀ c ∈ (lines.flatten ++ gap).getLast?, Text.isBreak c = true := by
  intro c last
  rw [Option.mem_def, List.getLast?_append] at last
  cases behind : gap.getLast? with
  | some d =>
    rw [behind] at last
    obtain rfl := Option.some.inj last
    exact breaks d (List.mem_of_getLast? behind)
  | none =>
    rw [behind, Option.none_or] at last
    cases final : lines.getLast? with
    | none =>
      rw [List.getLast?_eq_none_iff.mp final] at last
      contradiction
    | some line =>
      obtain ⟨front, rfl⟩ := List.getLast?_eq_some_iff.mp final
      obtain @⟨indent, words, stop, -, -, known⟩ := each line (by simp)
      rw [List.flatten_concat, List.getLast?_append, List.getLast?_append] at last
      rcases Text.mem_terminators_iff.mp known with rfl | rfl | rfl <;>
      · obtain rfl := Option.some.inj last
        decide

/-- Line comments and line breaks behind them lead a text whose first line counts for no run. -/
theorem leads_of_lines {style : Style} {lines : List Text} {gap body : Text}
    (each : ∀ line ∈ lines, IsCommentLine (marker style) line)
    (start : marker style <+: lines.flatten) (breaks : ∀ c ∈ gap, Text.isBreak c = true)
    (begins : ∀ line ∈ (Text.lines body).head?, inRun (marker style) line = false)
    (apart : body.head? ≠ some '\n') : Leads style (lines.flatten ++ gap) body := by
  have whole : (Text.lines (lines.flatten ++ gap)).flatten = lines.flatten ++ gap :=
    Text.flatten_lines _
  have starts : marker style <+: lines.flatten ++ gap := start.trans (List.prefix_append _ gap)
  have run : IsRun (marker style) (Text.lines (lines.flatten ++ gap)) body := by
    constructor
    · intro empty
      obtain ⟨c, more, filled, -⟩ := exists_marker style
      rw [Text.lines_eq_nil empty, filled] at starts
      exact absurd (List.prefix_nil.mp starts) (by simp)
    · exact inRun_lines each breaks
    · rw [whole]
      exact Text.lines_append_of_break (isBreak_getLast? each breaks) apart
    · exact begins
  have leads : Leads style (Text.lines (lines.flatten ++ gap)).flatten body :=
    .run run fun _ => by rwa [whole]
  rwa [whole] at leads

/-- A text whose first line counts for no run does not start with a line break. -/
theorem isBreak_head? {marker body : Text}
    (begins : ∀ line ∈ (Text.lines body).head?, inRun marker line = false) :
    ∀ c ∈ body.head?, Text.isBreak c = false := by
  intro c head
  rcases Text.exists_terminated body with unbroken | ⟨front, stop, rest, rfl, unbroken, ends⟩
  · exact unbroken c (List.mem_of_head? head)
  · cases front with
    | cons d more =>
      obtain rfl : d = c := Option.some.inj head
      exact unbroken d List.mem_cons_self
    | nil =>
      rw [Text.lines_append unbroken ends] at begins
      have counts : inRun marker stop = true := by
        apply inRun_of_breaks
        cases ends <;> simp [Text.isBreak]
      have stops : inRun marker stop = false := begins stop rfl
      rw [counts] at stops
      contradiction

/-- Behind a leading comment at the start of a text its body begins. -/
theorem bodyOf_of_leads {style : Style} {comment after : Text} {c : Char}
    (starts : [c] <+: comment) (plain : Text.isBlank c = false)
    (leads : Leads style comment after) :
    bodyOf style (comment ++ after) = Text.dropBreaks after := by
  obtain ⟨rest, rfl⟩ := starts
  have whole : Text.dropBreaks ([c] ++ rest ++ after) = [c] ++ rest ++ after := by
    apply Text.dropBreaks_of_head
    intro d head
    obtain rfl : c = d := Option.some.inj head
    exact Text.isBreak_of_plain plain
  unfold bodyOf
  rw [strip_of_leads whole leads]
  exact Text.dropBreaks_dropBreaks after

/-- An old header and line breaks behind it are all that is taken off a text of which the next line
counts for no run. -/
theorem bodyOf_of_isOldHeader {style : Style} {comment gap body : Text}
    (old : IsOldHeader style comment) (breaks : ∀ c ∈ gap, Text.isBreak c = true)
    (begins : ∀ line ∈ (Text.lines body).head?, inRun (marker style) line = false) :
    bodyOf style (comment ++ gap ++ body) = body := by
  have solid := isBreak_head? begins
  have bare : Text.dropBreaks body = body := Text.dropBreaks_of_head solid
  cases old with
  | closed kind first =>
    obtain ⟨c, more, rfl, plain⟩ := exists_opener kind
    have starts : [c] <+: c :: more := List.prefix_append [c] more
    rw [List.append_assoc, bodyOf_of_leads (starts.trans ?_) plain (.closed _ kind first)]
    · unfold Text.dropBreaks at bare ⊢
      rw [List.dropWhile_append_of_pos breaks, bare]
    · simp only [List.append_assoc]
      exact List.prefix_append _ _
  | @run lines each start =>
    obtain ⟨c, more, filled, plain⟩ := exists_marker style
    have starts : [c] <+: marker style := filled ▸ List.prefix_append [c] more
    have apart : body.head? ≠ some '\n' := by
      intro feed
      exact absurd (solid '\n' feed) (by decide)
    have leads := leads_of_lines each start breaks begins apart
    have first : [c] <+: lines.flatten ++ gap :=
      (starts.trans start).trans (List.prefix_append _ gap)
    rw [bodyOf_of_leads first plain leads, bare]

end Comment

/-- The text that normalizing settles on: the normal form, or the text itself when it has no
other. -/
def normalForm (style : Style) (text : Text) : Text := (normalize style text).getD text

/-- Texts settle on the preamble, the header and the body, whatever old header stands in front of
the body and whatever line breaks follow it. The preamble has to be split off as it is, and the
first line of the body is neither blank nor a line comment. -/
theorem normalForm_of_isOldHeader {style : Style} {preamble : Preamble} {comment gap body : Text}
    (old : Comment.IsOldHeader style comment) (breaks : ∀ c ∈ gap, Text.isBreak c = true)
    (begins : ∀ line ∈ (Text.lines body).head?, Text.dropBlanks line ≠ [] ∧
      ¬ Comment.marker style <+: Text.dropBlanks line)
    (fronts : Preamble.split style (preamble.text ++ (comment ++ gap ++ body)) =
      (preamble, comment ++ gap ++ body))
    (headed : comment ++ gap ++ body = style.header ++ body ∨
      ¬ style.header <+: comment ++ gap ++ body) :
    normalForm style (preamble.text ++ (comment ++ gap ++ body)) =
      preamble.text ++ style.header ++ body := by
  unfold normalForm
  rcases headed with same | missing
  · have there : style.header <+:
        (Preamble.split style (preamble.text ++ (comment ++ gap ++ body))).2 := by
      rw [fronts, same]
      exact List.prefix_append style.header body
    have settled := normalize_of_prefix there
    rw [settled, Option.getD_none, same, List.append_assoc]
  · have stops : ∀ line ∈ (Text.lines body).head?,
        Comment.inRun (Comment.marker style) line = false := by
      intro line first
      obtain ⟨filled, other⟩ := begins line first
      rw [← List.isPrefixOf_iff_prefix, Bool.not_eq_true] at other
      simp [Comment.inRun, filled, other]
    have rebuilt : normalize style (preamble.text ++ (comment ++ gap ++ body)) =
        some (preamble.compose style.header body) := by
      rw [normalize_eq_some_iff, fronts]
      exact ⟨missing, by rw [Comment.bodyOf_of_isOldHeader old breaks stops]⟩
    rw [rebuilt]
    rfl

/-- A marked script whose old comment ends in the middle of a terminator. -/
theorem normalForm_of_isOldHeader_script :
    Preamble.split .sharp ((Preamble.mk true "#!/bin/sh\r".toList).text ++
        ("# old\r".toList ++ "\n\r".toList ++ "x = 1".toList)) =
        (⟨true, "#!/bin/sh\r".toList⟩, "# old\r".toList ++ "\n\r".toList ++ "x = 1".toList) ∧
      normalForm .sharp ((Preamble.mk true "#!/bin/sh\r".toList).text ++
        ("# old\r".toList ++ "\n\r".toList ++ "x = 1".toList)) =
        (Preamble.mk true "#!/bin/sh\r".toList).text ++ Style.sharp.header ++ "x = 1".toList := by
  have split : Preamble.split .sharp ((Preamble.mk true "#!/bin/sh\r".toList).text ++
      ("# old\r".toList ++ "\n\r".toList ++ "x = 1".toList)) =
      (⟨true, "#!/bin/sh\r".toList⟩, "# old\r".toList ++ "\n\r".toList ++ "x = 1".toList) := by
    decide +kernel
  have unbroken : Text.Unbroken ([] ++ Comment.marker .sharp ++ " old".toList) := by
    simp [Text.Unbroken, Comment.marker, Text.isBreak]
  have comment : Comment.IsCommentLine (Comment.marker .sharp) "# old\r".toList :=
    .mk (by simp) unbroken (show "\r".toList ∈ Text.terminators by decide +kernel)
  have old : Comment.IsOldHeader .sharp "# old\r".toList :=
    .run (List.forall_mem_singleton.mpr comment) (by decide +kernel)
  have missing : ¬ Style.sharp.header <+: "# old\r".toList ++ "\n\r".toList ++ "x = 1".toList := by
    decide +kernel
  have breaks : ∀ c ∈ "\n\r".toList, Text.isBreak c = true := by
    simp [Text.isBreak]
  exact ⟨split, normalForm_of_isOldHeader old breaks (by decide +kernel) split (.inr missing)⟩

end LicenseHeader
