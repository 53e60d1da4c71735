/-!
# Lines of a text

A text is the list of its Unicode scalar values. A line ends with a line feed, with a carriage
return and a line feed, or with a carriage return alone; the last line may have no terminator.
`Text.lines` divides a text into its lines and keeps every terminator, so `flatten_lines` puts the
text together again. `Text.rows` is the coarser division used for display: it knows only the line
feed and drops the terminators.
-/

namespace LicenseHeader

/-- The content of a file as Unicode scalar values in order. -/
abbrev Text := List Char

namespace Text

/-- Whether a character can end a line. -/
def isBreak (c : Char) : Bool := c = '\n' || c = '\r'

/-- The text without the line breaks it starts with. -/
def dropBreaks (text : Text) : Text := text.dropWhile isBreak

/-- The lines of a text, each with its terminator; an empty text has no line. -/
def lines : Text → List Text
  | [] => []
  | '\r' :: '\n' :: rest => ['\r', '\n'] :: lines rest
  | c :: rest =>
    if isBreak c then [c] :: lines rest
    else
      match lines rest with
      | [] => [[c]]
      | line :: more => (c :: line) :: more

/-- The lines of a text are the text, cut into pieces. -/
@[simp]
theorem flatten_lines (text : Text) : (lines text).flatten = text := by
  fun_induction lines text with
  | case1 => rfl
  | case2 rest ih => simp [ih]
  | case3 c rest _ _ ih => simp [ih]
  | case4 c rest _ _ none ih =>
    rw [none] at ih
    simp_all
  | case5 c rest _ _ line more some ih =>
    rw [some] at ih
    simp_all

/-- The first line of a text with its terminator, and the text after it. -/
def splitFirstLine (text : Text) : Text × Text :=
  match lines text with
  | [] => ([], [])
  | line :: more => (line, more.flatten)

/-- The first line and the rest are the whole text. -/
theorem splitFirstLine_append (text : Text) :
    (splitFirstLine text).1 ++ (splitFirstLine text).2 = text := by
  have whole := flatten_lines text
  unfold splitFirstLine
  split <;> simp_all

/-- A displayed row without the carriage return before its line feed. -/
def dropLastReturn (row : Text) : Text :=
  if row.getLast? = some '\r' then row.dropLast else row

/-- The rows of a text as a terminal shows them: a line feed ends a row, together with a carriage
return right before it, and what follows the last line feed is a row when it is not empty. -/
def rows (text : Text) : List Text :=
  let rec
    /-- The rows after `row`, the reversed characters of the row under way. -/
    go (row : Text) : Text → List Text
      | [] => if row.isEmpty then [] else [row.reverse]
      | c :: rest =>
        if c = '\n' then dropLastReturn row.reverse :: go [] rest else go (c :: row) rest
  go [] text

/-- The text around the first occurrence of `pattern`: what stands before it and what after. -/
def splitAt? (pattern : Text) : Text → Option (Text × Text)
  | [] => if pattern.isEmpty then some ([], []) else none
  | c :: rest =>
    if pattern.isPrefixOf (c :: rest) then some ([], (c :: rest).drop pattern.length)
    else (splitAt? pattern rest).map fun parts => (c :: parts.1, parts.2)

/-- What a search returns, put around the pattern, is the text searched. -/
theorem eq_of_splitAt? {pattern text before after : Text}
    (found : splitAt? pattern text = some (before, after)) :
    text = before ++ pattern ++ after := by
  induction text generalizing before with
  | nil =>
    unfold splitAt? at found
    split at found <;> simp_all
  | cons c rest ih =>
    unfold splitAt? at found
    split at found
    · rename_i starts
      obtain ⟨rfl, rfl⟩ : [] = before ∧ (c :: rest).drop pattern.length = after := by
        simpa using found
      obtain ⟨tail, whole⟩ := List.isPrefixOf_iff_prefix.mp starts
      simp [← whole]
    · obtain ⟨⟨_, _⟩, searched, same⟩ := Option.map_eq_some_iff.mp found
      obtain ⟨rfl, rfl⟩ := Prod.mk.inj same
      simp [ih searched]

end Text

end LicenseHeader
