import LicenseHeader.Proofs.Patch.Apply
import LicenseHeader.Proofs.Text.Lines
import LicenseHeader.Proofs.Text.Number
import LicenseHeader.Proofs.Text.Occurrence
import Mathlib.Data.List.Infix

/-!
# Reading a patch

A patch is read line by line, where its lines end as those of any text do. A line with an `@` in
front opens a hunk and says where it starts and how many lines it has; the lines of a hunk have the
marks of rows, and a line with a backslash in front takes the terminator off the line before it.

`Patch.read?_render` says that a patch reads as the name that it was written for and as the rows of
its hunks, whatever the lines end with. At their heads stand the numbers that the first and the last
block of each hunk give.
-/

namespace LicenseHeader.Patch

/-- What stands at the head of a hunk: the number of its first line and how many lines it has, in
the old and in the new text. -/
structure Head where
  /-- The number of the first old line. -/
  oldStart : Nat
  /-- How many old lines there are. -/
  oldCount : Nat
  /-- The number of the first new line. -/
  newStart : Nat
  /-- How many new lines there are. -/
  newCount : Nat
  deriving DecidableEq, Repr

/-- A hunk as it is read. -/
structure Printed where
  /-- What stands at its head. -/
  head : Head
  /-- Its rows. -/
  rows : List Row
  deriving DecidableEq, Repr

/-! ## The reader -/

/-- The start and the count that a range says; a range without a count has one line. -/
def readRange? (text : Text) : Option (Nat × Nat) :=
  match Text.splitAt? [','] text with
  | none => (Text.number? text).map fun start => (start, 1)
  | some (start, count) => do
    let start ← Text.number? start
    let count ← Text.number? count
    return (start, count)

/-- What a line at the head of a hunk says. -/
def readHead? (line : Text) : Option Head := do
  let rest ← line.dropPrefix? "@@ -".toList
  let (old, rest) ← Text.splitAt? " +".toList rest
  let (new, _) ← Text.splitAt? " @@\n".toList rest
  let (oldStart, oldCount) ← readRange? old
  let (newStart, newCount) ← readRange? new
  return ⟨oldStart, oldCount, newStart, newCount⟩

/-- What happens to a line with a mark in front. -/
def kindOf? (mark : Char) : Option EditKind :=
  if mark = ' ' then some .keep
  else if mark = '-' then some .delete
  else if mark = '+' then some .insert
  else none

/-- Whether lines start with the note that the line before them has no terminator. -/
def isNoted (lines : List Text) : Bool := lines.head?.any fun line => line.head? = some '\\'

/-- The rows that lines start with and the hunks after these. -/
def readLines? : List Text → Option (List Row × List Printed)
  | [] => some ([], [])
  | [] :: _ => none
  | (mark :: content) :: more => do
    let (rows, hunks) ← readLines? more
    if mark = '@' then
      let head ← readHead? (mark :: content)
      return ([], ⟨head, rows⟩ :: hunks)
    else if mark = '\\' then return (rows, hunks)
    else
      let kind ← kindOf? mark
      return (⟨kind, if isNoted more then content.dropLast else content⟩ :: rows, hunks)

/-- The name and the hunks of a patch of one file: the file is named twice, and nothing stands
before the first hunk. -/
def read? (patch : Text) : Option (Text × List Printed) := do
  let rest ← patch.dropPrefix? "--- a/".toList
  let (name, rest) ← Text.splitAt? "\n+++ b/".toList rest
  let rest ← rest.dropPrefix? (name ++ ['\n'])
  let (rows, hunks) ← readLines? (Text.lines rest)
  if rows.isEmpty then return (name, hunks) else none

/-! ## Heads -/

/-- A pattern is first behind a text that lacks the character it starts with. -/
theorem isFirst_of_not_mem {c : Char} {pattern before : Text} (absent : c ∉ before) :
    Text.IsFirst (c :: pattern) before := by
  intro earlier rest same
  rw [List.append_assoc] at same
  have lengths := congrArg List.length same
  simp only [List.length_append, List.length_cons] at lengths
  obtain ⟨middle, rfl, -⟩ | ⟨middle, rfl, whole⟩ := List.append_eq_append_iff.mp same
  · rw [List.length_append] at lengths
    exact List.length_eq_zero_iff.mp (by omega)
  · cases middle with
    | nil => exact List.length_eq_zero_iff.mp (by simpa using lengths)
    | cons d middle =>
      obtain ⟨rfl, -⟩ := List.cons.inj whole
      simp at absent

/-- The number of the first of some lines that `before` lines stand before. No lines are numbered
like the line before them. -/
def firstNumber (before count : Nat) : Nat := if count = 0 then before else before + 1

/-- A range is the number of its first line and, unless it has one line, how many it has. -/
theorem toList_rangeText (start stop : Nat) : (rangeText start stop).toList =
    (toString (firstNumber start (stop - start))).toList ++
      if stop - start = 1 then [] else ',' :: (toString (stop - start)).toList := by
  unfold rangeText firstNumber
  simp only
  generalize stop - start = count
  by_cases one : count = 1
  · simp [one]
  · by_cases none : count = 0
    · simp [none]
    · simp [one, none]

/-- A range is written with digits and perhaps a comma. -/
theorem mem_rangeText {start stop : Nat} {c : Char} (member : c ∈ (rangeText start stop).toList) :
    c.isDigit = true ∨ c = ',' := by
  rw [toList_rangeText] at member
  obtain member | member := List.mem_append.mp member
  · exact .inl (Text.isDigit_of_mem_toString member)
  · split at member
    · contradiction
    · obtain rfl | member := List.mem_cons.mp member
      · exact .inr rfl
      · exact .inl (Text.isDigit_of_mem_toString member)

/-- A range is read as its start and its count. -/
theorem readRange?_rangeText (start stop : Nat) : readRange? (rangeText start stop).toList =
    some (firstNumber start (stop - start), stop - start) := by
  have plain (n : Nat) : ',' ∉ (toString n).toList := fun member =>
    absurd (Text.isDigit_of_mem_toString member) (by decide)
  rw [toList_rangeText]
  generalize firstNumber start (stop - start) = first
  generalize stop - start = count
  split
  next one =>
    have missing : Text.splitAt? [','] ((toString first).toList ++ []) = none := by
      rw [Text.splitAt?_eq_none_iff, List.append_nil, List.singleton_infix_iff]
      exact plain first
    rw [readRange?, missing, List.append_nil, Text.number?_toString, one]
    rfl
  next =>
    have found : Text.splitAt? [','] ((toString first).toList ++ ',' :: (toString count).toList) =
        some ((toString first).toList, (toString count).toList) := by
      have comma : Text.IsFirst [','] (toString first).toList := isFirst_of_not_mem (plain first)
      simpa using Text.splitAt?_of_isFirst (toString count).toList comma
    rw [readRange?, found]
    simp only [Text.number?_toString]
    rfl

/-- What the head of a hunk says when it is written from its first to its last block. -/
def Head.between (first last : Block) : Head :=
  let oldCount := last.old + last.oldLength - first.old
  let newCount := last.new + last.newLength - first.new
  ⟨firstNumber first.old oldCount, oldCount, firstNumber first.new newCount, newCount⟩

/-- A range does not hold a character that is neither a digit nor a comma. -/
theorem not_mem_rangeText {start stop : Nat} {c : Char} (digit : c.isDigit = false)
    (other : c ≠ ',') : c ∉ (rangeText start stop).toList := by
  intro member
  obtain is | is := mem_rangeText member
  · rw [is] at digit
    contradiction
  · exact other is

/-- The line at the head of a hunk. -/
theorem toList_headText (first last : Block) : (headText first last).toList =
    "@@ -".toList ++ ((rangeText first.old (last.old + last.oldLength)).toList ++ " +".toList ++
      ((rangeText first.new (last.new + last.newLength)).toList ++ " @@\n".toList ++ [])) := by
  simp [headText]

/-- The line at the head of a hunk is read as what it was written from. -/
theorem readHead?_headText (first last : Block) :
    readHead? (headText first last).toList = some (Head.between first last) := by
  have gap (start stop : Nat) : ' ' ∉ (rangeText start stop).toList :=
    not_mem_rangeText (by decide) (by decide)
  have start (rest : Text) : ("@@ -".toList ++ rest).dropPrefix? "@@ -".toList = some rest :=
    List.dropPrefix?_append_of_beq rest (by simp)
  have old : Text.IsFirst " +".toList (rangeText first.old (last.old + last.oldLength)).toList := by
    rw [show " +".toList = ' ' :: "+".toList from rfl]
    exact isFirst_of_not_mem (gap _ _)
  have new : Text.IsFirst " @@\n".toList
      (rangeText first.new (last.new + last.newLength)).toList := by
    rw [show " @@\n".toList = ' ' :: "@@\n".toList from rfl]
    exact isFirst_of_not_mem (gap _ _)
  rw [toList_headText, readHead?, start]
  simp only [Option.bind_eq_bind, Option.bind_some, Text.splitAt?_of_isFirst _ old,
    Text.splitAt?_of_isFirst _ new, readRange?_rangeText]
  rfl

/-! ## Rows -/

/-- The mark in front of a line of a hunk. -/
def markOf : EditKind → Char
  | .keep => ' '
  | .delete => '-'
  | .insert => '+'

/-- The note behind a line without a terminator. -/
def noteLine : Text := '\\' :: " No newline at end of file\n".toList

/-- The lines that a row is printed as. -/
def Row.printed (row : Row) : List Text :=
  if row.line.getLast?.any Text.isBreak then [markOf row.kind :: row.line]
  else [markOf row.kind :: row.line ++ ['\n'], noteLine]

/-- A printed row. -/
theorem flatten_printed (row : Row) :
    row.printed.flatten = lineText (markOf row.kind) row.line := by
  have note : "\n\\ No newline at end of file\n".toList = '\n' :: noteLine := rfl
  unfold Row.printed lineText
  rw [note]
  cases row.line.getLast? with
  | none => simp
  | some last => cases ends : Text.isBreak last <;> simp [ends]

/-- Printed rows, one after another. -/
theorem flatten_flatMap_printed (rows : List Row) : (rows.flatMap Row.printed).flatten =
    rows.flatMap fun row => lineText (markOf row.kind) row.line := by
  rw [List.flatMap_def, List.flatten_flatten, List.map_map, List.flatMap_def]
  exact congrArg List.flatten (List.map_congr_left fun row _ => flatten_printed row)

/-- Printed lines that all have one mark. -/
theorem flatten_printed_map (kind : EditKind) (lines : List Text) :
    ((lines.map (Row.mk kind)).flatMap Row.printed).flatten =
      lines.flatMap (lineText (markOf kind)) := by
  rw [flatten_flatMap_printed, List.flatMap_map]

/-- A printed block. -/
theorem blockText_eq (sides : Sides) (block : Block) :
    blockText sides block = ((block.rows sides).flatMap Row.printed).flatten := by
  unfold blockText Block.rows
  simp only
  split
  · rw [flatten_printed_map]
    rfl
  · rw [List.flatMap_append, List.flatten_append, flatten_printed_map, flatten_printed_map]
    rfl

/-- The rows of a printed hunk. -/
theorem flatMap_blockText (sides : Sides) (hunk : List Block) :
    hunk.flatMap (blockText sides) = ((rowsOf sides hunk).flatMap Row.printed).flatten := by
  induction hunk with
  | nil => rfl
  | cons block more ih =>
    rw [List.flatMap_cons, ih, blockText_eq, ← List.flatten_append, ← List.flatMap_append]
    rfl

/-- Whether the line of a row is cut off where lines are cut. -/
def Row.Cut (row : Row) : Prop := Text.Ended row.line ∨ Text.Unbroken row.line

/-- Only a line without a terminator is printed with a note. -/
theorem printed_eq {row : Row} (cut : row.Cut) :
    (Text.Ended row.line ∧ row.printed = [markOf row.kind :: row.line]) ∨
      (Text.Unbroken row.line ∧
        row.printed = [markOf row.kind :: row.line ++ ['\n'], noteLine]) := by
  unfold Row.printed
  obtain ended | unbroken := cut
  · obtain ⟨c, last, breaks⟩ := ended.getLast?
    exact .inl ⟨ended, by simp [last, breaks]⟩
  · refine .inr ⟨unbroken, if_neg ?_⟩
    cases last : row.line.getLast? with
    | none => simp
    | some c => simp [unbroken c (List.mem_of_getLast? last)]

/-- A mark is no line break. -/
theorem isBreak_markOf (kind : EditKind) : Text.isBreak (markOf kind) = false := by
  cases kind <;> decide

/-- Every printed line has a terminator and does not start with one. -/
theorem ended_of_mem_printed {row : Row} (cut : row.Cut) {line : Text}
    (member : line ∈ row.printed) : Text.Ended line ∧ line.head? ≠ some '\n' := by
  have apart : markOf row.kind ≠ '\n' := by
    intro same
    have := isBreak_markOf row.kind
    rw [same] at this
    contradiction
  obtain ⟨ended, printed⟩ | ⟨unbroken, printed⟩ := printed_eq cut
  · rw [printed] at member
    obtain rfl := List.mem_singleton.mp member
    exact ⟨ended.cons (isBreak_markOf row.kind), by simpa using apart⟩
  · rw [printed] at member
    obtain rfl | member := List.mem_cons.mp member
    · exact ⟨unbroken.ended.cons (isBreak_markOf row.kind), by simpa using apart⟩
    · obtain rfl := List.mem_singleton.mp member
      have unbroken : Text.Unbroken ('\\' :: " No newline at end of file".toList) := by decide
      exact ⟨unbroken.ended, by decide⟩

/-! ## Reading what is printed -/

/-- A mark is read as what it stands for, and it stands neither for a head nor for a note. -/
theorem kindOf?_markOf (kind : EditKind) :
    kindOf? (markOf kind) = some kind ∧ markOf kind ≠ '@' ∧ markOf kind ≠ '\\' := by
  cases kind <;> decide

/-- A line with the mark of a row is read as a row. -/
theorem readLines?_mark (kind : EditKind) (content : Text) (more : List Text) :
    readLines? ((markOf kind :: content) :: more) = (readLines? more).map fun found =>
      (⟨kind, if isNoted more then content.dropLast else content⟩ :: found.1, found.2) := by
  obtain ⟨known, noHead, noNote⟩ := kindOf?_markOf kind
  rw [readLines?]
  simp only [noHead, noNote, known, if_false]
  cases readLines? more <;> rfl

/-- A note is read as nothing. -/
theorem readLines?_note (more : List Text) :
    readLines? (noteLine :: more) = readLines? more := by
  unfold noteLine
  rw [readLines?]
  cases readLines? more <;> rfl

/-- A printed row is read as the row. -/
theorem readLines?_printed {row : Row} (cut : row.Cut) {more : List Text}
    (apart : isNoted more = false) : readLines? (row.printed ++ more) =
      (readLines? more).map fun found => (row :: found.1, found.2) := by
  obtain ⟨-, printed⟩ | ⟨-, printed⟩ := printed_eq cut
  · rw [printed, List.singleton_append, readLines?_mark]
    simp [apart]
  · have noted : isNoted (noteLine :: more) = true := rfl
    rw [printed, List.cons_append, List.singleton_append, List.cons_append, readLines?_mark,
      readLines?_note, noted, if_pos rfl, List.dropLast_concat]

/-- Printed rows do not start with a note. -/
theorem isNoted_printed {rows : List Row} {more : List Text} (apart : isNoted more = false) :
    isNoted (rows.flatMap Row.printed ++ more) = false := by
  cases rows with
  | nil => exact apart
  | cons row rest =>
    have mark := (kindOf?_markOf row.kind).2.2
    rw [List.flatMap_cons]
    unfold Row.printed
    split <;> simp [isNoted, mark]

/-- Printed rows are read as the rows. -/
theorem readLines?_rows {rows : List Row} (cut : ∀ row ∈ rows, row.Cut) {more : List Text}
    (apart : isNoted more = false) : readLines? (rows.flatMap Row.printed ++ more) =
      (readLines? more).map fun found => (rows ++ found.1, found.2) := by
  induction rows with
  | nil => simp
  | cons row rest ih =>
    obtain ⟨first, others⟩ := List.forall_mem_cons.mp cut
    rw [List.flatMap_cons, List.append_assoc, readLines?_printed first (isNoted_printed apart),
      ih others, Option.map_map]
    rfl

/-- The line at the head of a hunk starts with an `@`. -/
theorem exists_headText (first last : Block) :
    ∃ rest, (headText first last).toList = '@' :: rest := by
  rw [toList_headText]
  exact ⟨_, rfl⟩

/-- A head is read as what it was written from and takes the rows behind it. -/
theorem readLines?_head (first last : Block) (more : List Text) :
    readLines? ((headText first last).toList :: more) = (readLines? more).map fun found =>
      ([], ⟨Head.between first last, found.1⟩ :: found.2) := by
  have head := readHead?_headText first last
  obtain ⟨rest, line⟩ := exists_headText first last
  rw [line] at head ⊢
  rw [readLines?]
  simp only [if_true, head]
  cases readLines? more <;> rfl

/-- What a hunk is read as. -/
def Printed.ofBlocks (sides : Sides) (blocks : List Block) : Printed where
  head := match blocks.head?, blocks.getLast? with
    | some first, some last => Head.between first last
    | _, _ => ⟨0, 0, 0, 0⟩
  rows := rowsOf sides blocks

/-- The lines that a hunk is printed as. -/
def hunkLines (sides : Sides) (blocks : List Block) : List Text :=
  match blocks.head?, blocks.getLast? with
  | some first, some last =>
    (headText first last).toList :: (rowsOf sides blocks).flatMap Row.printed
  | _, _ => []

/-- A printed hunk. -/
theorem flatten_hunkLines (sides : Sides) (blocks : List Block) :
    (hunkLines sides blocks).flatten = hunkText sides blocks := by
  unfold hunkLines hunkText
  cases blocks.head? with
  | none => rfl
  | some first =>
    cases blocks.getLast? with
    | none => rfl
    | some last => rw [List.flatten_cons, flatMap_blockText]

/-- Printed hunks, one after another. -/
theorem flatten_flatMap_hunkLines (sides : Sides) (hunks : List (List Block)) :
    (hunks.flatMap (hunkLines sides)).flatten = hunks.flatMap (hunkText sides) := by
  rw [List.flatMap_def, List.flatMap_def, List.flatten_flatten, List.map_map]
  exact congrArg List.flatten (List.map_congr_left fun blocks _ => flatten_hunkLines sides blocks)

/-- Printed hunks are read as the hunks. -/
theorem readLines?_hunks {sides : Sides} {hunks : List (List Block)}
    (filled : ∀ blocks ∈ hunks, blocks ≠ [])
    (cut : ∀ blocks ∈ hunks, ∀ row ∈ rowsOf sides blocks, row.Cut) :
    readLines? (hunks.flatMap (hunkLines sides)) =
        some ([], hunks.map (Printed.ofBlocks sides)) ∧
      isNoted (hunks.flatMap (hunkLines sides)) = false := by
  induction hunks with
  | nil => exact ⟨rfl, rfl⟩
  | cons blocks more ih =>
    obtain ⟨some, filled⟩ := List.forall_mem_cons.mp filled
    obtain ⟨rows, cut⟩ := List.forall_mem_cons.mp cut
    obtain ⟨read, apart⟩ := ih filled cut
    have head := List.head?_eq_some_head some
    have last := List.getLast?_eq_some_getLast some
    have lines : hunkLines sides blocks =
        (headText (blocks.head some) (blocks.getLast some)).toList ::
          (rowsOf sides blocks).flatMap Row.printed := by
      simp only [hunkLines, head, last]
    rw [List.flatMap_cons, lines, List.cons_append]
    constructor
    · rw [readLines?_head, readLines?_rows rows apart, read]
      simp [Printed.ofBlocks, head, last]
    · obtain ⟨rest, line⟩ := exists_headText (blocks.head some) (blocks.getLast some)
      rw [line]
      rfl

/-! ## The whole patch -/

/-- The line of a row of blocks is a line of one of the texts. -/
theorem line_mem_of_mem_rowsOf {sides : Sides} {blocks : List Block} {row : Row}
    (member : row ∈ rowsOf sides blocks) :
    row.line ∈ sides.old.toList ∨ row.line ∈ sides.new.toList := by
  have inside {lines : Array Text} {start count : Nat} {line : Text}
      (taken : line ∈ linesAt lines start count) : line ∈ lines.toList := by
    rw [linesAt_eq] at taken
    exact List.mem_of_mem_drop (List.mem_of_mem_take taken)
  obtain ⟨block, -, member⟩ := List.mem_flatMap.mp member
  unfold Block.rows at member
  simp only at member
  split at member
  · obtain ⟨line, taken, rfl⟩ := List.mem_map.mp member
    exact .inl (inside taken)
  · obtain member | member := List.mem_append.mp member
    · obtain ⟨line, taken, rfl⟩ := List.mem_map.mp member
      exact .inl (inside taken)
    · obtain ⟨line, taken, rfl⟩ := List.mem_map.mp member
      exact .inr (inside taken)

/-- The rows of a patch hold lines as texts are cut into. -/
theorem cut_of_mem_rowsOf {old new : Text} {blocks : List Block} {row : Row}
    (member : row ∈ rowsOf (sidesOf old new) blocks) : row.Cut := by
  have cut {text : Text} (taken : row.line ∈ Text.lines text) : row.Cut :=
    (Text.ended_or_unbroken taken).imp_right And.left
  obtain taken | taken := line_mem_of_mem_rowsOf member
  · exact cut taken
  · exact cut taken

/-- The line at the head of a hunk ends with its only line break. -/
theorem ended_headText (first last : Block) : Text.Ended (headText first last).toList := by
  have range (start stop : Nat) : Text.Unbroken (rangeText start stop).toList := by
    intro c member
    cases breaks : Text.isBreak c with
    | false => rfl
    | true =>
      obtain rfl | rfl := Text.isBreak_iff.mp breaks
      · exact absurd member (not_mem_rangeText (by decide) (by decide))
      · exact absurd member (not_mem_rangeText (by decide) (by decide))
  have marks : Text.Unbroken "@@ -".toList ∧ Text.Unbroken " +".toList ∧
      Text.Unbroken " @@".toList := by
    decide
  have line : (headText first last).toList = "@@ -".toList ++
      (rangeText first.old (last.old + last.oldLength)).toList ++ " +".toList ++
      (rangeText first.new (last.new + last.newLength)).toList ++ " @@".toList ++ ['\n'] := by
    simp [headText]
  rw [line]
  refine Text.Unbroken.ended ?_
  simp only [Text.unbroken_append]
  exact ⟨⟨⟨⟨marks.1, range _ _⟩, marks.2.1⟩, range _ _⟩, marks.2.2⟩

/-- The printed hunks of a patch are cut where their lines end. -/
theorem lines_flatMap_hunkText (old new : Text) (hunks : List (List Block)) :
    Text.lines (hunks.flatMap (hunkText (sidesOf old new))) =
      hunks.flatMap (hunkLines (sidesOf old new)) := by
  have printed : ∀ line ∈ hunks.flatMap (hunkLines (sidesOf old new)),
      Text.Ended line ∧ line.head? ≠ some '\n' := by
    intro line member
    obtain ⟨blocks, -, member⟩ := List.mem_flatMap.mp member
    unfold hunkLines at member
    split at member
    next first last _ _ =>
      obtain rfl | member := List.mem_cons.mp member
      · obtain ⟨rest, same⟩ := exists_headText first last
        refine ⟨ended_headText first last, ?_⟩
        simp [same]
      · obtain ⟨row, shown, member⟩ := List.mem_flatMap.mp member
        exact ended_of_mem_printed (cut_of_mem_rowsOf shown) member
    next => contradiction
  rw [← flatten_flatMap_hunkLines]
  exact Text.lines_flatten_of_ended (fun line member => (printed line member).1)
    fun line member => (printed line member).2

/-- The text of a patch with hunks. -/
theorem render_eq (name : Text) {old new : Text} (changed : hunks (script old new) ≠ []) :
    render name old new = "--- a/".toList ++ (name ++ "\n+++ b/".toList ++ (name ++ ['\n'] ++
      (hunks (script old new)).flatMap (hunkText (sidesOf old new)))) := by
  unfold render
  split
  next none => exact absurd none changed
  next => simp [sidesOf]

/-- A patch is read as the name that it was written for and as its hunks. -/
theorem read?_render {name : Text} (plain : '\n' ∉ name) {old new : Text}
    (changed : hunks (script old new) ≠ []) : read? (render name old new) =
      some (name, (hunks (script old new)).map (Printed.ofBlocks (sidesOf old new))) := by
  have filled : ∀ blocks ∈ hunks (script old new), blocks ≠ [] := by
    rintro blocks member rfl
    obtain ⟨-, block, inside, -⟩ := tight_hunks (script old new) [] member
    contradiction
  have start (rest : Text) : ("--- a/".toList ++ rest).dropPrefix? "--- a/".toList = some rest :=
    List.dropPrefix?_append_of_beq rest (by simp)
  have named : Text.IsFirst "\n+++ b/".toList name := by
    rw [show "\n+++ b/".toList = '\n' :: "+++ b/".toList from rfl]
    exact isFirst_of_not_mem plain
  have again (rest : Text) : (name ++ ['\n'] ++ rest).dropPrefix? (name ++ ['\n']) = some rest :=
    List.dropPrefix?_append_of_beq rest (by simp)
  have cut : ∀ blocks ∈ hunks (script old new), ∀ row ∈ rowsOf (sidesOf old new) blocks, row.Cut :=
    fun _ _ _ => cut_of_mem_rowsOf
  obtain ⟨read, -⟩ := readLines?_hunks filled cut
  rw [render_eq name changed, read?, start]
  simp only [Option.bind_eq_bind, Option.bind_some, Text.splitAt?_of_isFirst _ named, again,
    lines_flatMap_hunkText, read]
  rfl

end LicenseHeader.Patch
