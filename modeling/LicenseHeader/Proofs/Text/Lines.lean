import LicenseHeader.Text.Blank

/-!
# Where lines end

A line that is not the last one ends with a terminator, and a carriage return is a terminator only
in front of something else than a line feed. `Text.lines_append` cuts a text behind a terminator,
and `Text.exists_terminated` says that every text is cut so or holds no line break. The lines behind
some of the lines of a text are the lines of what these leave (`Text.lines_flatten_of_append`).
Lines with terminators can be put together and cut again (`Text.lines_flatten_of_ended`).
-/

namespace LicenseHeader.Text

/-- What ends a line in front of the rest of a text. -/
inductive Terminates : Text → Text → Prop where
  /-- A line feed. -/
  | feed (rest : Text) : Terminates ['\n'] rest
  /-- A carriage return and a line feed. -/
  | both (rest : Text) : Terminates ['\r', '\n'] rest
  /-- A carriage return that no line feed follows. -/
  | carriage (rest : Text) (apart : rest.head? ≠ some '\n') : Terminates ['\r'] rest

/-- What ends a line also does so in front of another text, unless this starts with a line feed. -/
theorem Terminates.before {stop rest other : Text} (ends : Terminates stop rest)
    (apart : other.head? ≠ some '\n') : Terminates stop other := by
  cases ends with
  | feed => exact .feed other
  | both => exact .both other
  | carriage => exact .carriage other apart

/-- Whether no character of a text is a line break. -/
def Unbroken (text : Text) : Prop := ∀ c ∈ text, isBreak c = false

-- The characters of the text are gone through, not all that there are.
instance (text : Text) : Decidable (Unbroken text) :=
  List.decidableBAll (fun c => isBreak c = false) text

/-- A character in front of a text without line breaks. -/
theorem unbroken_cons {c : Char} {text : Text} :
    Unbroken (c :: text) ↔ isBreak c = false ∧ Unbroken text := by
  simp [Unbroken]

/-- Two texts without line breaks. -/
theorem unbroken_append {first second : Text} :
    Unbroken (first ++ second) ↔ Unbroken first ∧ Unbroken second := by
  simp only [Unbroken, List.forall_mem_append]

/-- A line break is a line feed or a carriage return. -/
theorem isBreak_iff {c : Char} : isBreak c = true ↔ c = '\n' ∨ c = '\r' := by
  simp [isBreak]

/-- A character that is no white space is no line break. -/
theorem isBreak_of_plain {c : Char} (plain : isBlank c = false) : isBreak c = false := by
  cases breaks : isBreak c with
  | false => rfl
  | true =>
    rw [isBlank_of_isBreak breaks] at plain
    contradiction

/-- The lines of a text without line breaks. -/
theorem lines_of_unbroken {text : Text} (unbroken : Unbroken text) (filled : text ≠ []) :
    lines text = [text] := by
  induction text with
  | nil => contradiction
  | cons c rest ih =>
    obtain ⟨apart, others⟩ := unbroken_cons.mp unbroken
    have plain : c ≠ '\r' := by
      rintro rfl
      exact absurd apart (by decide)
    rw [lines.eq_3 _ _ (fun _ same => absurd same plain)]
    rw [if_neg (by simp [apart])]
    cases rest with
    | nil => rfl
    | cons d more => rw [ih others (by simp)]

/-- A terminator is a line of its own. -/
theorem lines_terminator {stop rest : Text} (ends : Terminates stop rest) :
    lines (stop ++ rest) = stop :: lines rest := by
  cases ends with
  | feed =>
    show lines ('\n' :: rest) = _
    rw [lines.eq_3 _ _ (fun _ same => absurd same (by decide))]
    rfl
  | both => exact lines.eq_2 rest
  | carriage _ apart =>
    show lines ('\r' :: rest) = _
    rw [lines.eq_3 _ _ (fun after _ same => apart (by rw [same]; rfl))]
    rfl

/-- A text is cut behind a terminator. -/
theorem lines_append {body stop rest : Text} (unbroken : Unbroken body)
    (ends : Terminates stop rest) :
    lines (body ++ stop ++ rest) = (body ++ stop) :: lines rest := by
  induction body with
  | nil => exact lines_terminator ends
  | cons c body ih =>
    obtain ⟨apart, others⟩ := unbroken_cons.mp unbroken
    have plain : c ≠ '\r' := by
      rintro rfl
      exact absurd apart (by decide)
    rw [List.cons_append, List.cons_append, lines.eq_3 _ _ (fun _ same => absurd same plain)]
    rw [if_neg (by simp [apart]), ih others]

/-- A text without lines is empty. -/
theorem lines_eq_nil {text : Text} (empty : lines text = []) : text = [] := by
  have whole := flatten_lines text
  rw [empty] at whole
  exact whole.symm

/-- Every text either holds no line break or is cut behind its first terminator. -/
theorem exists_terminated (text : Text) :
    Unbroken text ∨ ∃ body stop rest,
      text = body ++ stop ++ rest ∧ Unbroken body ∧ Terminates stop rest := by
  induction text with
  | nil => exact .inl (by simp [Unbroken])
  | cons c text ih =>
    by_cases breaks : isBreak c = true
    · right
      rcases isBreak_iff.mp breaks with rfl | rfl
      · exact ⟨[], ['\n'], text, rfl, by simp [Unbroken], .feed text⟩
      · by_cases follows : text.head? = some '\n'
        · obtain ⟨rest, rfl⟩ : ∃ rest, text = '\n' :: rest := by
            cases text with
            | nil => simp at follows
            | cons d rest => exact ⟨rest, by simpa using follows⟩
          exact ⟨[], ['\r', '\n'], rest, rfl, by simp [Unbroken], .both rest⟩
        · exact ⟨[], ['\r'], text, rfl, by simp [Unbroken], .carriage text follows⟩
    · have apart : isBreak c = false := by simpa using breaks
      rcases ih with unbroken | ⟨body, stop, rest, rfl, unbroken, ends⟩
      · exact .inl (unbroken_cons.mpr ⟨apart, unbroken⟩)
      · exact .inr ⟨c :: body, stop, rest, rfl, unbroken_cons.mpr ⟨apart, unbroken⟩, ends⟩

/-- The first line of a text is all of it, or it ends with the first terminator and what this leaves
has the other lines. -/
theorem lines_cons_cases {text line : Text} {more : List Text} (whole : lines text = line :: more) :
    (Unbroken text ∧ text ≠ [] ∧ line = text ∧ more = []) ∨
      ∃ body stop rest, text = body ++ stop ++ rest ∧ Unbroken body ∧ Terminates stop rest ∧
        line = body ++ stop ∧ more = lines rest := by
  rcases exists_terminated text with unbroken | ⟨body, stop, rest, rfl, unbroken, ends⟩
  · have filled : text ≠ [] := by
      rintro rfl
      contradiction
    rw [lines_of_unbroken unbroken filled] at whole
    obtain ⟨rfl, rfl⟩ := List.cons.inj whole
    exact .inl ⟨unbroken, filled, rfl, rfl⟩
  · rw [lines_append unbroken ends] at whole
    obtain ⟨rfl, rfl⟩ := List.cons.inj whole
    exact .inr ⟨body, stop, rest, rfl, unbroken, ends, rfl, rfl⟩

/-- The lines behind the first one are the lines of what it leaves. -/
theorem lines_flatten_of_cons {text line : Text} {more : List Text}
    (whole : lines text = line :: more) : lines more.flatten = more := by
  obtain ⟨-, -, -, rfl⟩ | ⟨body, stop, rest, -, -, -, -, rfl⟩ := lines_cons_cases whole
  · rfl
  · rw [flatten_lines]

/-- The lines behind some first ones are the lines of what these leave. -/
theorem lines_flatten_of_append {text : Text} {first more : List Text}
    (whole : lines text = first ++ more) : lines more.flatten = more := by
  induction first generalizing text with
  | nil =>
    rw [List.nil_append] at whole
    rw [← whole, flatten_lines]
  | cons line first ih =>
    have behind := lines_flatten_of_cons whole
    exact ih behind

/-- Whether a line has a terminator, its only one. -/
def Ended (line : Text) : Prop :=
  ∃ body stop rest, line = body ++ stop ∧ Unbroken body ∧ Terminates stop rest

/-- A line has a terminator or holds no line break. -/
theorem ended_or_unbroken {text line : Text} (member : line ∈ lines text) :
    Ended line ∨ (Unbroken line ∧ line ≠ []) := by
  fun_induction lines text generalizing line with
  | case1 => contradiction
  | case2 rest ih =>
    obtain rfl | later := List.mem_cons.mp member
    · exact .inl ⟨[], _, rest, rfl, by simp [Unbroken], .both rest⟩
    · exact ih later
  | case3 c rest _ breaks ih =>
    obtain rfl | later := List.mem_cons.mp member
    · obtain rfl | rfl := isBreak_iff.mp breaks
      · exact .inl ⟨[], _, rest, rfl, by simp [Unbroken], .feed rest⟩
      · exact .inl ⟨[], _, [], rfl, by simp [Unbroken], .carriage [] (by simp)⟩
    · exact ih later
  | case4 c rest _ plain =>
    obtain rfl := List.mem_singleton.mp member
    exact .inr ⟨by simpa [Unbroken] using plain, by simp⟩
  | case5 c rest _ plain first more whole ih =>
    rw [whole] at ih
    obtain rfl | later := List.mem_cons.mp member
    · have apart : isBreak c = false := by simpa using plain
      obtain ⟨body, stop, after, rfl, unbroken, ends⟩ | ⟨unbroken, -⟩ := ih List.mem_cons_self
      · exact .inl ⟨c :: body, stop, after, rfl, unbroken_cons.mpr ⟨apart, unbroken⟩, ends⟩
      · exact .inr ⟨unbroken_cons.mpr ⟨apart, unbroken⟩, by simp⟩
    · exact ih (List.mem_cons_of_mem _ later)

/-- A character in front of a line with a terminator. -/
theorem Ended.cons {c : Char} {line : Text} (ended : Ended line) (apart : isBreak c = false) :
    Ended (c :: line) := by
  obtain ⟨body, stop, rest, rfl, unbroken, ends⟩ := ended
  exact ⟨c :: body, stop, rest, rfl, unbroken_cons.mpr ⟨apart, unbroken⟩, ends⟩

/-- A text without line breaks and a line feed. -/
theorem Unbroken.ended {text : Text} (unbroken : Unbroken text) : Ended (text ++ ['\n']) :=
  ⟨text, ['\n'], [], rfl, unbroken, .feed []⟩

/-- A line with a terminator ends with a line break. -/
theorem Ended.getLast? {line : Text} (ended : Ended line) :
    ∃ c, line.getLast? = some c ∧ isBreak c = true := by
  obtain ⟨body, stop, rest, rfl, -, ends⟩ := ended
  cases ends with
  | feed => exact ⟨'\n', by simp, rfl⟩
  | both => exact ⟨'\n', by simp, rfl⟩
  | carriage => exact ⟨'\r', by simp, rfl⟩

/-- Lines with terminators, put together, are cut where they were put together, when none of them
starts with a line feed. -/
theorem lines_flatten_of_ended {all : List Text} (ended : ∀ line ∈ all, Ended line)
    (starts : ∀ line ∈ all, line.head? ≠ some '\n') : lines all.flatten = all := by
  induction all with
  | nil => rfl
  | cons line more ih =>
    obtain ⟨-, plain⟩ := List.forall_mem_cons.mp starts
    obtain ⟨⟨body, stop, rest, rfl, unbroken, ends⟩, others⟩ := List.forall_mem_cons.mp ended
    have apart : more.flatten.head? ≠ some '\n' := by
      cases more with
      | nil => simp
      | cons next later =>
        obtain ⟨c, last, -⟩ := (others next List.mem_cons_self).getLast?
        cases next with
        | nil => simp at last
        | cons d body => exact plain (d :: body) List.mem_cons_self
    rw [List.flatten_cons, lines_append unbroken (ends.before apart), ih others plain]

/-- A text cut behind its first terminator has the part before the cut as its first line. -/
theorem splitFirstLine_append_terminator {body stop rest : Text} (unbroken : Unbroken body)
    (ends : Terminates stop rest) :
    splitFirstLine (body ++ stop ++ rest) = (body ++ stop, rest) := by
  unfold splitFirstLine
  rw [lines_append unbroken ends]
  simp

/-- The first line of a text is all of it and has no terminator, or it ends with its first one. -/
theorem splitFirstLine_shape (text : Text) :
    (Unbroken (splitFirstLine text).1 ∧ (splitFirstLine text).2 = []) ∨
      ∃ body stop, (splitFirstLine text).1 = body ++ stop ∧ Unbroken body ∧
        Terminates stop (splitFirstLine text).2 := by
  rcases exists_terminated text with unbroken | ⟨body, stop, rest, rfl, unbroken, ends⟩
  · left
    cases text with
    | nil => exact ⟨unbroken, rfl⟩
    | cons c more =>
      have only := lines_of_unbroken unbroken (by simp)
      unfold splitFirstLine
      rw [only]
      exact ⟨unbroken, rfl⟩
  · right
    rw [splitFirstLine_append_terminator unbroken ends]
    exact ⟨body, stop, rfl, unbroken, ends⟩

/-- A character that is no line break belongs to the first line. -/
theorem splitFirstLine_cons {c : Char} (apart : isBreak c = false) (rest : Text) :
    splitFirstLine (c :: rest) = (c :: (splitFirstLine rest).1, (splitFirstLine rest).2) := by
  have plain : c ≠ '\r' := by
    rintro rfl
    exact absurd apart (by decide)
  unfold splitFirstLine
  rw [lines.eq_3 _ _ (fun _ same => absurd same plain), if_neg (by simp [apart])]
  cases lines rest with
  | nil => rfl
  | cons line more => rfl

/-- The first line starts with what the text starts with, as far as this holds no line break. -/
theorem prefix_firstLine {start text : Text} (unbroken : Unbroken start) (starts : start <+: text) :
    start <+: (splitFirstLine text).1 := by
  induction start generalizing text with
  | nil => exact List.nil_prefix
  | cons c start ih =>
    obtain ⟨apart, others⟩ := unbroken_cons.mp unbroken
    obtain ⟨rest, rfl⟩ := starts
    rw [List.cons_append, splitFirstLine_cons apart]
    exact List.cons_prefix_cons.mpr ⟨rfl, ih others (List.prefix_append start rest)⟩

/-- The first line of a text that is not empty is the first of its lines. -/
theorem head?_lines {text : Text} (filled : text ≠ []) :
    (lines text).head? = some (splitFirstLine text).1 := by
  unfold splitFirstLine
  cases whole : lines text with
  | nil => exact absurd (lines_eq_nil whole) filled
  | cons line more => rfl

/-- The line breaks in front of a text and what follows them are the text. -/
theorem exists_breaks (text : Text) :
    ∃ gap, text = gap ++ dropBreaks text ∧ (∀ c ∈ gap, isBreak c = true) ∧
      ∀ c ∈ (dropBreaks text).head?, isBreak c = false := by
  refine ⟨text.takeWhile isBreak, List.takeWhile_append_dropWhile.symm, ?_, ?_⟩
  · exact List.all_eq_true.mp List.all_takeWhile
  · intro c head
    have stops := List.head?_dropWhile_not isBreak text
    rw [← dropBreaks, Option.mem_def.mp head] at stops
    simpa using stops

/-- Without line breaks in front, dropping them changes nothing. -/
theorem dropBreaks_of_head {text : Text} (apart : ∀ c ∈ text.head?, isBreak c = false) :
    dropBreaks text = text := by
  cases text with
  | nil => rfl
  | cons c rest =>
    have plain : isBreak c = false := apart c rfl
    simp [dropBreaks, plain]

/-- Dropping line breaks twice drops no more. -/
theorem dropBreaks_dropBreaks (text : Text) :
    dropBreaks (dropBreaks text) = dropBreaks text := by
  obtain ⟨-, -, -, apart⟩ := exists_breaks text
  exact dropBreaks_of_head apart

end LicenseHeader.Text
