import LicenseHeader.Proofs.Text.Division

/-!
# The only division of a text into lines

A text can be read line by line. The next line goes up to the first line break of what is left, and
when a carriage return and a line feed stand there, it takes both (`Text.nextLine?`).
`Text.ReadsLines` says what reading on hands out until nothing is left.

What a division into lines is can also be said of all lines at once (`Text.IsDivision`): they are
the text, none is empty, each but the last ends with its only terminator, and no line break stands
elsewhere. Every text has exactly one such division, its lines, and reading line by line ends and
hands out these (`Text.only_division`).
-/

namespace LicenseHeader.Text

/-- How far the first line of a text goes: up to its first line break and with this, with both
characters when it is a carriage return and a line feed; all of the text when it has none. -/
def lineEnd (text : Text) : Nat :=
  match text.findIdx? isBreak with
  | some start => if ['\r', '\n'].isPrefixOf (text.drop start) then start + 2 else start + 1
  | none => text.length

/-- The next line of a text and what is left behind it; an empty text has no line. -/
def nextLine? (text : Text) : Option (Text × Text) :=
  if text.isEmpty then none else some (text.splitAt (lineEnd text))

/-- Reading a text line by line: these lines are handed out, and then there is no further one. -/
inductive ReadsLines : Text → List Text → Prop where
  /-- There is no further line. -/
  | done {text : Text} (finished : nextLine? text = none) : ReadsLines text []
  /-- The next line is handed out, and reading goes on behind it. -/
  | next {text line rest : Text} {more : List Text} (found : nextLine? text = some (line, rest))
      (behind : ReadsLines rest more) : ReadsLines text (line :: more)

/-- Whether texts are what a text is divided into by its line breaks. -/
structure IsDivision (all : List Text) (text : Text) : Prop where
  /-- The lines, put together, are the text. -/
  whole : all.flatten = text
  /-- No line is empty. -/
  filled : ∀ line ∈ all, line ≠ []
  /-- A line in front of others ends with its only terminator, which is a carriage return alone only
  where the text does not go on with a line feed. -/
  ended : ∀ first line more, all = first ++ line :: more → more ≠ [] →
    ∃ body stop, line = body ++ stop ∧ Unbroken body ∧ Terminates stop more.flatten
  /-- The last line ends with its only terminator or has no line break at all. -/
  last : ∀ first line, all = first ++ [line] → Ended line ∨ Unbroken line
  /-- A carriage return and the line feed behind it are not in two lines. -/
  unsplit : ∀ first line next more, all = first ++ line :: next :: more →
    line.getLast? = some '\r' → next.head? ≠ some '\n'

section Reading

variable {text line body stop rest : Text} {run more all : List Text}

/-- A text without line breaks is its first line. -/
theorem lineEnd_of_unbroken (unbroken : Unbroken text) : lineEnd text = text.length := by
  have none : text.findIdx? isBreak = none := List.findIdx?_eq_none_iff.mpr unbroken
  unfold lineEnd
  rw [none]

/-- The first terminator of a text ends its first line. -/
theorem lineEnd_append (unbroken : Unbroken body) (ends : Terminates stop rest) :
    lineEnd (body ++ stop ++ rest) = (body ++ stop).length := by
  have before : body.findIdx? isBreak = none := List.findIdx?_eq_none_iff.mpr unbroken
  have behind : (stop ++ rest).findIdx? isBreak = some 0 := by
    cases ends <;> rfl
  have start : (body ++ stop ++ rest).findIdx? isBreak = some body.length := by
    rw [List.append_assoc, List.findIdx?_append, before, behind]
    simp
  have left : (body ++ stop ++ rest).drop body.length = stop ++ rest := by
    rw [List.append_assoc, List.drop_left]
  unfold lineEnd
  rw [start]
  simp only [left, List.length_append]
  cases ends with
  | feed => rfl
  | both => rfl
  | carriage _ apart =>
    have alone : ['\r', '\n'].isPrefixOf (['\r'] ++ rest) = false := by
      cases rest with
      | nil => rfl
      | cons c after =>
        have other : c ≠ '\n' := by simpa using apart
        simp [List.isPrefixOf, other.symm]
    rw [alone]
    rfl

/-- Only an empty text has no next line. -/
theorem nextLine?_eq_none_iff : nextLine? text = none ↔ text = [] := by
  simp [nextLine?]

/-- The next line of a text without line breaks is all of it. -/
theorem nextLine?_of_unbroken (unbroken : Unbroken text) (filled : text ≠ []) :
    nextLine? text = some (text, []) := by
  unfold nextLine?
  rw [lineEnd_of_unbroken unbroken, List.splitAt_eq]
  simp [filled]

/-- The next line of a text ends with its first terminator. -/
theorem nextLine?_append (unbroken : Unbroken body) (ends : Terminates stop rest) :
    nextLine? (body ++ stop ++ rest) = some (body ++ stop, rest) := by
  have filled : (body ++ stop ++ rest).isEmpty = false := by
    cases ends <;> simp
  unfold nextLine?
  rw [filled, lineEnd_append unbroken ends, List.splitAt_eq, List.take_left, List.drop_left]
  rfl

/-- The next line is the first of the lines of a text, and what is left has the others. -/
theorem lines_of_nextLine? (found : nextLine? text = some (line, rest)) :
    lines text = line :: lines rest := by
  rcases exists_terminated text with unbroken | ⟨body, stop, behind, rfl, unbroken, ends⟩
  · have filled : text ≠ [] := by
      rintro rfl
      contradiction
    rw [nextLine?_of_unbroken unbroken filled] at found
    obtain ⟨rfl, rfl⟩ := Prod.mk.inj (Option.some.inj found)
    exact lines_of_unbroken unbroken filled
  · rw [nextLine?_append unbroken ends] at found
    obtain ⟨rfl, rfl⟩ := Prod.mk.inj (Option.some.inj found)
    exact lines_append unbroken ends

/-- What reading hands out are the lines of the text. -/
theorem ReadsLines.eq_lines (reads : ReadsLines text all) : all = lines text := by
  induction reads with
  | done finished =>
    rw [nextLine?_eq_none_iff.mp finished]
    rfl
  | next found behind ih => rw [lines_of_nextLine? found, ih]

/-- Reading hands out whole lines in front of a text and goes on behind them. -/
theorem Cut.readsLines (cut : Cut run rest text) (behind : ReadsLines rest more) :
    ReadsLines text (run ++ more) := by
  induction cut with
  | nil rest => exact behind
  | ended unbroken ends cut ih => exact .next (nextLine?_append unbroken ends) (ih behind)
  | last unbroken filled => exact .next (nextLine?_of_unbroken unbroken filled) behind

/-- Reading a text line by line ends. -/
theorem readsLines_lines (text : Text) : ReadsLines text (lines text) := by
  have cut : Cut (lines text) [] text := cut_of_lines (List.append_nil _).symm
  have done : ReadsLines [] [] := .done rfl
  simpa using cut.readsLines done

end Reading

section Dividing

variable {text line : Text} {first more all : List Text}

/-- Each line of a text but the last ends with its only terminator, in front of the others. -/
theorem exists_terminator (whole : lines text = first ++ line :: more) (others : more ≠ []) :
    ∃ body stop, line = body ++ stop ∧ Unbroken body ∧ Terminates stop more.flatten := by
  have behind : lines (line :: more).flatten = line :: more := lines_flatten_of_append whole
  obtain ⟨-, -, -, none⟩ | ⟨body, stop, rest, -, unbroken, ends, rfl, rfl⟩ :=
    lines_cons_cases behind
  · contradiction
  · exact ⟨body, stop, rfl, unbroken, by rwa [flatten_lines]⟩

/-- The lines of a text divide it. -/
theorem isDivision_lines (text : Text) : IsDivision (lines text) text where
  whole := flatten_lines text
  filled := by
    rintro line member rfl
    obtain ended | ⟨-, filled⟩ := ended_or_unbroken member
    · obtain ⟨c, last, -⟩ := ended.getLast?
      contradiction
    · contradiction
  ended _ _ _ whole others := exists_terminator whole others
  last first line whole := by
    have member : line ∈ lines text := by simp [whole]
    exact (ended_or_unbroken member).imp_right And.left
  unsplit first line next more whole last starts := by
    obtain ⟨body, stop, rfl, -, ends⟩ := exists_terminator whole (by simp)
    -- Of the terminators only the carriage return alone ends with one.
    cases ends with
    | feed => simp at last
    | both => simp at last
    | carriage _ apart => exact apart (by simp [starts])

/-- The lines behind the first one divide what it leaves. -/
theorem IsDivision.tail (division : IsDivision (line :: more) text) :
    IsDivision more more.flatten where
  whole := rfl
  filled next member := division.filled next (List.mem_cons_of_mem line member)
  ended first next others whole := division.ended (line :: first) next others (by simp [whole])
  last first next whole := division.last (line :: first) next (by simp [whole])
  unsplit first next after others whole :=
    division.unsplit (line :: first) next after others (by simp [whole])

/-- Only the lines of a text divide it. -/
theorem IsDivision.eq_lines (division : IsDivision all text) : all = lines text := by
  induction all generalizing text with
  | nil =>
    obtain rfl := division.whole
    rfl
  | cons line more ih =>
    obtain rfl := division.whole
    have behind := ih division.tail
    by_cases others : more = []
    · subst others
      have filled := division.filled line List.mem_cons_self
      rw [List.flatten_cons, List.flatten_nil]
      obtain ⟨body, stop, rest, rfl, unbroken, ends⟩ | unbroken := division.last [] line rfl
      · have alone : Terminates stop [] := ends.before (by simp)
        rw [lines_append unbroken alone]
        rfl
      · rw [List.append_nil, lines_of_unbroken unbroken filled]
    · obtain ⟨body, stop, rfl, unbroken, ends⟩ := division.ended [] line more rfl others
      rw [List.flatten_cons, lines_append unbroken ends, ← behind]

end Dividing

/-- Reading a text line by line ends and hands out its lines, and these are its only division. -/
theorem only_division (text : Text) (all : List Text) :
    (ReadsLines text all ↔ all = lines text) ∧ (IsDivision all text ↔ all = lines text) := by
  refine ⟨⟨ReadsLines.eq_lines, ?_⟩, ⟨IsDivision.eq_lines, ?_⟩⟩
  · rintro rfl
    exact readsLines_lines text
  · rintro rfl
    exact isDivision_lines text

example : lines "\r\r\n\n".toList = [['\r'], ['\r', '\n'], ['\n']] := by decide

-- Both parts end with a terminator, but these are one.
example : ¬ IsDivision [['\r'], ['\n']] ['\r', '\n'] := fun division =>
  division.unsplit [] ['\r'] ['\n'] [] rfl rfl rfl

end LicenseHeader.Text
