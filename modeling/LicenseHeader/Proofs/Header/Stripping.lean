import LicenseHeader.Proofs.Header.Convergence
import LicenseHeader.Proofs.Text.Division

/-!
# What stripping takes off

`Comment.HasComment` says when a text starts with a comment of a style, and `Comment.Specified` what
is left of the text then and otherwise. Stripping does what is specified and nothing else does
(`Comment.strip_eq_iff`): a closed comment goes up to its first closer, line comments go as the
longest run of whole lines, and a comment that is not closed stays.
-/

namespace LicenseHeader.Comment

/-- Whether a line is blank, or a line comment behind white space. -/
def Counts (marker line : Text) : Prop :=
  (∀ c ∈ line, Text.isBlank c = true) ∨
    ∃ blanks rest, line = blanks ++ marker ++ rest ∧ ∀ c ∈ blanks, Text.isBlank c = true

/-- Whether lines are the longest run of blank lines and line comments at the start of a text, and
what follows them. -/
structure LongestRun (marker : Text) (run : List Text) (after start : Text) : Prop where
  /-- The lines are whole lines of the text. -/
  cut : Text.Cut run after start
  /-- There is a line in the run. -/
  filled : run ≠ []
  /-- Every line is blank or a line comment. -/
  each : ∀ line ∈ run, Counts marker line
  /-- The line behind them is neither. -/
  longest : ∀ line rest, Text.Cut [line] rest after → ¬ Counts marker line

/-- Whether a text starts with a comment of a style. In the block style that is a comment with a
closer behind its opener, or a line comment; in the sharp style a string with the quote that opens
it again behind this, or, where no quote stands, a line that is blank or a line comment. -/
def HasComment : Style → Text → Prop
  | .block, start =>
    ("/*".toList <+: start ∧ "*/".toList <:+: start.drop 2) ∨ "//".toList <+: start
  | .sharp, start =>
    (∃ quote ∈ tripleQuotes, quote <+: start ∧ quote <:+: start.drop 3) ∨
      ((∀ quote ∈ tripleQuotes, ¬ quote <+: start) ∧
        ∃ line rest, Text.Cut [line] rest start ∧ Counts "#".toList line)

/-- What is left of a text that starts with no line break. -/
structure Specified (style : Style) (start : Text) (done : Stripped) : Prop where
  /-- It is an end of the text. -/
  ends : done.rest <:+ start
  /-- It starts with no line break. -/
  trimmed : ∀ c ∈ done.rest.head?, Text.isBreak c = false
  /-- It is the whole text when no comment was taken off. -/
  whole : done.removed = false → done.rest = start
  /-- A comment was taken off exactly when the text starts with one. -/
  removed_iff : done.removed = true ↔ HasComment style start
  /-- A closed comment goes up to its first closer, with the line breaks behind it. -/
  closed : ∀ opener closer inner after, (opener, closer) ∈ delimiters style →
    start = opener ++ inner ++ closer ++ after → Text.IsFirst closer inner →
      done.rest = Text.dropBreaks after
  /-- Line comments go as the longest run of lines, and nothing goes with them. -/
  lines : HasComment style start → (∀ pair ∈ delimiters style, ¬ pair.1 <+: start) →
    ∃ run, LongestRun (marker style) run done.rest start
  /-- A comment that is not closed stays, whatever lines it consists of. -/
  unclosed : ∀ opener closer, (opener, closer) ∈ delimiters style → opener <+: start →
    ¬ closer <:+: start.drop opener.length → done = .whole start

/-- The markers start with no white space. -/
theorem plain_marker (style : Style) : ∀ c ∈ (marker style).head?, Text.isBlank c = false := by
  intro c first
  cases style with
  | block =>
    obtain rfl : '/' = c := Option.some.inj first
    decide
  | sharp =>
    obtain rfl : '#' = c := Option.some.inj first
    decide

section Lines

variable {marker text start after : Text} {run : List Text}

/-- White space in front of something else. -/
theorem dropBlanks_append {blanks : Text} (white : ∀ c ∈ blanks, Text.isBlank c = true)
    (rest : Text) : Text.dropBlanks (blanks ++ rest) = Text.dropBlanks rest := by
  unfold Text.dropBlanks
  rw [List.dropWhile_append_of_pos white]

/-- A line is in a run exactly when it is blank or a line comment behind white space. -/
theorem inRun_iff (plain : ∀ c ∈ marker.head?, Text.isBlank c = false) (line : Text) :
    inRun marker line = true ↔ Counts marker line := by
  have blanks : ∀ c ∈ line.takeWhile Text.isBlank, Text.isBlank c = true :=
    List.all_eq_true.mp List.all_takeWhile
  have split : line.takeWhile Text.isBlank ++ Text.dropBlanks line = line :=
    List.takeWhile_append_dropWhile
  unfold inRun Counts
  rw [Bool.or_eq_true, List.isEmpty_iff, List.isPrefixOf_iff_prefix]
  constructor
  · rintro (empty | ⟨rest, marked⟩)
    · rw [empty, List.append_nil] at split
      exact .inl (split ▸ blanks)
    · refine .inr ⟨line.takeWhile Text.isBlank, rest, ?_, blanks⟩
      rw [List.append_assoc, marked, split]
  · rintro (white | ⟨front, rest, rfl, white⟩)
    · left
      have dropped := dropBlanks_append white []
      rwa [List.append_nil] at dropped
    · right
      rw [List.append_assoc, dropBlanks_append white]
      have stays : Text.dropBlanks (marker ++ rest) = marker ++ rest ∨ marker = [] := by
        cases marker with
        | nil => exact .inr rfl
        | cons c more => simp [Text.dropBlanks, plain c rfl]
      rcases stays with same | rfl
      · rw [same]
        exact List.prefix_append marker rest
      · exact List.nil_prefix

/-- The longest run of lines is the one that is looked for. -/
theorem longestRun_iff (plain : ∀ c ∈ marker.head?, Text.isBlank c = false) :
    LongestRun marker run after start ↔
      start = run.flatten ++ after ∧ IsRun marker run after := by
  constructor
  · intro longest
    obtain ⟨whole, divided⟩ := Text.cut_iff.mp longest.cut
    refine ⟨whole, longest.filled, ?_, whole ▸ divided, ?_⟩
    · intro line member
      exact (inRun_iff plain line).mpr (longest.each line member)
    · intro line next
      obtain ⟨rest, cut⟩ := Text.cut_single_iff.mpr next
      rw [← Bool.not_eq_true, inRun_iff plain]
      exact longest.longest line rest cut
  · rintro ⟨rfl, lines⟩
    refine ⟨Text.cut_iff.mpr ⟨rfl, lines.whole⟩, lines.filled, ?_, ?_⟩
    · intro line member
      exact (inRun_iff plain line).mp (lines.each line member)
    · intro line rest cut
      rw [← inRun_iff plain, Bool.not_eq_true]
      exact lines.longest line (Text.cut_single_iff.mp ⟨rest, cut⟩)

/-- Behind the longest run of lines no line break is dropped. -/
theorem IsRun.dropBreaks_eq (lines : IsRun marker run after) : Text.dropBreaks after = after :=
  Text.dropBreaks_of_head (isBreak_head? lines.longest)

/-- A text has one longest run of lines in front. -/
theorem IsRun.unique {other : List Text} {rest : Text} (lines : IsRun marker run after)
    (also : IsRun marker other rest) (same : run.flatten ++ after = other.flatten ++ rest) :
    after = rest := by
  have first := stripRun_of_isRun lines
  rw [same, stripRun_of_isRun also] at first
  have dropped := congrArg Stripped.rest first
  exact (lines.dropBreaks_eq.symm.trans dropped.symm).trans also.dropBreaks_eq

/-- Lines are taken off exactly when the first one is blank or a line comment. -/
theorem removed_stripRun_iff (plain : ∀ c ∈ marker.head?, Text.isBlank c = false) :
    (stripRun marker start).removed = true ↔
      ∃ line rest, Text.Cut [line] rest start ∧ Counts marker line := by
  constructor
  · intro removed
    cases first : (Text.lines start).head? with
    | none =>
      rw [stripRun_of_head (by simp [first])] at removed
      contradiction
    | some line =>
      obtain ⟨rest, cut⟩ := Text.cut_single_iff.mpr first
      refine ⟨line, rest, cut, (inRun_iff plain line).mp ?_⟩
      cases counts : inRun marker line with
      | true => rfl
      | false =>
        have other : ∀ head ∈ (Text.lines start).head?, inRun marker head = false := by
          intro head found
          rwa [← Option.some.inj (first.symm.trans found)]
        rw [stripRun_of_head other] at removed
        contradiction
  · rintro ⟨line, rest, cut, counts⟩
    have first := Text.cut_single_iff.mp ⟨rest, cut⟩
    obtain ⟨run, after, -, -, stripped⟩ := exists_run first ((inRun_iff plain line).mpr counts)
    rw [stripped]
    rfl

end Lines

section Closed

variable {closer body start : Text}

/-- A comment is closed exactly when its closer stands behind the opener. -/
theorem removed_stripClosed_iff :
    (stripClosed closer body start).removed = true ↔ closer <:+: body := by
  rcases stripClosed_cases closer body start with ⟨inner, after, rfl, -, closed⟩ | ⟨open_, whole⟩
  · rw [closed]
    exact ⟨fun _ => ⟨inner, after, rfl⟩, fun _ => rfl⟩
  · rw [whole]
    exact ⟨fun removed => by contradiction, fun closes => absurd closes open_⟩

/-- A pattern that stands in a text stands in it for the first time somewhere. -/
theorem exists_first (closes : closer <:+: body) :
    ∃ inner after, body = inner ++ closer ++ after ∧ Text.IsFirst closer inner := by
  cases found : Text.splitAt? closer body with
  | none => exact absurd closes (Text.splitAt?_eq_none_iff.mp found)
  | some parts => exact ⟨parts.1, parts.2, Text.splitAt?_eq_some_iff.mp found⟩

end Closed

section Removed

variable {start : Text}

/-- A text that starts with a closed comment of the block style starts with no line comment. -/
theorem not_line_of_block (opens : "/*".toList <+: start) : ¬ "//".toList <+: start := by
  intro starts
  obtain ⟨rest, rfl⟩ := opens
  exact absurd (List.cons_prefix_cons.mp (List.cons_prefix_cons.mp starts).2).1 (by decide)

/-- A text starts with one quote at most. -/
theorem quote_unique {quote other : Text} (known : quote ∈ tripleQuotes)
    (also : other ∈ tripleQuotes) (opens : quote <+: start) (starts : other <+: start) :
    other = quote := by
  obtain ⟨body, rfl⟩ := opens
  have found := find?_tripleQuotes known body
  obtain ⟨rest, same⟩ := starts
  rw [← same, find?_tripleQuotes also rest] at found
  exact Option.some.inj found

/-- A quote has three characters. -/
theorem length_of_mem_tripleQuotes {quote : Text} (known : quote ∈ tripleQuotes) :
    quote.length = 3 := by
  obtain ⟨c, rfl, -, -⟩ := exists_of_mem_tripleQuotes known
  rfl

/-- A text that starts with an opener starts with a comment exactly when the closer follows. -/
theorem hasComment_iff_of_opener {style : Style} {opener closer : Text}
    (kind : (opener, closer) ∈ delimiters style) (opens : opener <+: start) :
    HasComment style start ↔ closer <:+: start.drop opener.length := by
  cases style with
  | block =>
    obtain ⟨rfl, rfl⟩ : opener = "/*".toList ∧ closer = "*/".toList := by
      simpa [delimiters] using kind
    constructor
    · rintro (⟨-, closes⟩ | starts)
      · exact closes
      · exact absurd starts (not_line_of_block opens)
    · exact fun closes => .inl ⟨opens, closes⟩
  | sharp =>
    obtain ⟨quote, known, same⟩ := List.mem_map.mp kind
    obtain ⟨rfl, rfl⟩ := Prod.mk.inj same
    rw [length_of_mem_tripleQuotes known]
    constructor
    · rintro (⟨other, also, starts, closes⟩ | ⟨unquoted, -⟩)
      · exact quote_unique known also opens starts ▸ closes
      · exact absurd opens (unquoted quote known)
    · exact fun closes => .inl ⟨quote, known, opens, closes⟩

/-- A text with a line comment of the block style in front starts with a line that counts. -/
theorem removed_stripRun_of_marker (starts : "//".toList <+: start) :
    (stripRun "//".toList start).removed = true := by
  have slash : ['/'] <+: start := (List.prefix_append ['/'] ['/']).trans starts
  have filled : start ≠ [] := by
    rintro rfl
    exact absurd slash (by decide)
  have counts := (inRun_firstLine (by decide) slash (unbroken_marker .block)).mpr starts
  obtain ⟨run, after, -, -, stripped⟩ := exists_run (Text.head?_lines filled) counts
  have removed : (stripRun (marker .block) start).removed = true := by
    rw [stripped]
    rfl
  exact removed

/-- In the block style something is taken off exactly when the text starts with a comment. -/
theorem removed_stripBlock_iff :
    (stripBlock start).removed = true ↔ HasComment .block start := by
  unfold stripBlock
  simp only [List.isPrefixOf_iff_prefix]
  split
  next opens =>
    rw [removed_stripClosed_iff]
    exact (hasComment_iff_of_opener (List.mem_singleton_self _) opens).symm
  next plain =>
    split
    next starts => exact ⟨fun _ => .inr starts, fun _ => removed_stripRun_of_marker starts⟩
    next other =>
      exact ⟨fun removed => by contradiction,
        fun either => either.elim (fun closed => absurd closed.1 plain) (absurd · other)⟩

/-- In the sharp style something is taken off exactly when the text starts with a comment. -/
theorem removed_stripSharp_iff :
    (stripSharp start).removed = true ↔ HasComment .sharp start := by
  unfold stripSharp
  cases found : tripleQuotes.find? (·.isPrefixOf start) with
  | some quote =>
    have known := List.mem_of_find?_eq_some found
    have opens : quote <+: start := List.isPrefixOf_iff_prefix.mp
      (List.find?_some (p := fun quote : Text => quote.isPrefixOf start) found)
    dsimp only
    rw [removed_stripClosed_iff]
    have kind : (quote, quote) ∈ delimiters .sharp := List.mem_map.mpr ⟨quote, known, rfl⟩
    exact (hasComment_iff_of_opener kind opens).symm
  | none =>
    have unquoted : ∀ quote ∈ tripleQuotes, ¬ quote <+: start := by
      intro quote known opens
      exact List.find?_eq_none.mp found quote known (List.isPrefixOf_iff_prefix.mpr opens)
    dsimp only
    refine (removed_stripRun_iff (plain_marker .sharp)).trans ?_
    constructor
    · intro first
      exact .inr ⟨unquoted, first⟩
    · rintro (⟨quote, known, opens, -⟩ | ⟨-, first⟩)
      · exact absurd opens (unquoted quote known)
      · exact first

/-- Something is taken off exactly when the text starts with a comment behind its line breaks. -/
theorem removed_strip_iff (style : Style) (text : Text) :
    (strip style text).removed = true ↔ HasComment style (Text.dropBreaks text) := by
  rw [strip_eq]
  cases style with
  | block => exact removed_stripBlock_iff
  | sharp => exact removed_stripSharp_iff

end Removed

/-- What is left of a text starts with no line break. -/
theorem strip_trimmed (style : Style) (text : Text) :
    ∀ c ∈ (strip style text).rest.head?, Text.isBreak c = false := by
  have trimmed (text : Text) : ∀ c ∈ (Text.dropBreaks text).head?, Text.isBreak c = false := by
    intro c first
    have stops := List.head?_dropWhile_not Text.isBreak text
    rw [show List.dropWhile Text.isBreak text = Text.dropBreaks text from rfl, first] at stops
    simpa using stops
  rcases strip_cases style text with ⟨comment, after, -, -, stripped⟩ | whole
  · rw [stripped]
    exact trimmed after
  · rw [whole]
    exact trimmed text

/-- Stripping does what is specified. -/
theorem specified_strip (style : Style) (text : Text) :
    Specified style (Text.dropBreaks text) (strip style text) where
  ends := by
    rcases strip_cases style text with ⟨comment, after, start, -, stripped⟩ | whole
    · rw [stripped, start]
      exact (List.dropWhile_suffix _).trans (List.suffix_append comment after)
    · rw [whole]
      exact List.suffix_rfl
  trimmed := strip_trimmed style text
  whole := by
    intro kept
    rcases strip_cases style text with ⟨comment, after, -, -, stripped⟩ | whole
    · rw [stripped] at kept
      contradiction
    · rw [whole]
      rfl
  removed_iff := removed_strip_iff style text
  closed := by
    intro opener closer inner after kind start first
    rw [strip_of_leads start (.closed after kind first)]
    rfl
  lines := by
    intro comment unopened
    rcases strip_cases style text with ⟨front, after, start, leads, stripped⟩ | whole
    · cases leads with
      | @closed opener closer inner _ kind first =>
        refine absurd ?_ (unopened (opener, closer) kind)
        rw [start, List.append_assoc, List.append_assoc]
        exact List.prefix_append opener _
      | @run run _ lines begins =>
        refine ⟨run, (longestRun_iff (plain_marker style)).mpr ?_⟩
        have rest : (strip style text).rest = after := by
          rw [stripped]
          exact lines.dropBreaks_eq
        rw [rest]
        exact ⟨start, lines⟩
    · have removed := (removed_strip_iff style text).mpr comment
      rw [whole] at removed
      contradiction
  unclosed := by
    intro opener closer kind opens open_
    rcases strip_cases style text with ⟨comment, after, -, -, stripped⟩ | whole
    · have removed : (strip style text).removed = true := by
        rw [stripped]
        rfl
      have comment := (removed_strip_iff style text).mp removed
      exact absurd ((hasComment_iff_of_opener kind opens).mp comment) open_
    · exact whole

/-- Two outcomes with the same flag and the same rest are the same. -/
theorem eq_of_parts {done other : Stripped} (removed : done.removed = other.removed)
    (rest : done.rest = other.rest) : done = other := by
  cases done
  cases other
  cases removed
  cases rest
  rfl

/-- There is one outcome that is specified. -/
theorem Specified.unique {style : Style} {start : Text} {done other : Stripped}
    (specified : Specified style start done) (also : Specified style start other) :
    done = other := by
  by_cases comment : HasComment style start
  · have removed : done.removed = other.removed :=
      (specified.removed_iff.mpr comment).trans (also.removed_iff.mpr comment).symm
    have rest : done.rest = other.rest := by
      by_cases opened : ∃ pair ∈ delimiters style, pair.1 <+: start
      · obtain ⟨⟨opener, closer⟩, kind, opens⟩ := opened
        have closes := (hasComment_iff_of_opener kind opens).mp comment
        obtain ⟨body, rfl⟩ := opens
        rw [List.drop_left] at closes
        obtain ⟨inner, after, rfl, first⟩ := exists_first closes
        have start : opener ++ (inner ++ closer ++ after) = opener ++ inner ++ closer ++ after := by
          simp only [List.append_assoc]
        rw [specified.closed opener closer inner after kind start first,
          also.closed opener closer inner after kind start first]
      · have unopened : ∀ pair ∈ delimiters style, ¬ pair.1 <+: start :=
          fun pair kind opens => opened ⟨pair, kind, opens⟩
        obtain ⟨run, longest⟩ := specified.lines comment unopened
        obtain ⟨run', longest'⟩ := also.lines comment unopened
        obtain ⟨whole, lines⟩ := (longestRun_iff (plain_marker style)).mp longest
        obtain ⟨whole', lines'⟩ := (longestRun_iff (plain_marker style)).mp longest'
        exact lines.unique lines' (whole.symm.trans whole')
    exact eq_of_parts removed rest
  · have kept : done.removed = false :=
      Bool.eq_false_iff.mpr fun removed => comment (specified.removed_iff.mp removed)
    have kept' : other.removed = false :=
      Bool.eq_false_iff.mpr fun removed => comment (also.removed_iff.mp removed)
    exact eq_of_parts (kept.trans kept'.symm)
      ((specified.whole kept).trans (also.whole kept').symm)

/-- Stripping does what is specified for the text behind its line breaks, and nothing else does. -/
theorem strip_eq_iff (style : Style) (text : Text) (done : Stripped) :
    strip style text = done ↔ Specified style (Text.dropBreaks text) done := by
  constructor
  · rintro rfl
    exact specified_strip style text
  · intro specified
    exact (specified_strip style text).unique specified

end LicenseHeader.Comment
