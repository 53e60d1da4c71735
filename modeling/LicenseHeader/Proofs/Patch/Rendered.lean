import LicenseHeader.Proofs.Patch.Reading

/-!
# What a patch says

A patch is empty when both texts are the same. Otherwise it is read back as hunks that stand in
order, apply to the old lines, make the new lines out of them, and show few kept lines around their
changes (`Patch.read_rendered`).

The numbers at the head of a hunk are taken from its first and its last block. A deletion and an
insertion that changed places may still carry the position that they had before, and where such a
block stands at an end of a hunk the head is wrong (`Patch.head_eq_iff`). This needs a change at the
very start or the very end of the texts: hunks that begin and end with kept lines have right heads.
-/

namespace LicenseHeader.Patch

variable {sides : Sides} {p q : Point}

/-! ## Rows at the ends of a hunk -/

/-- Whether the line of a row is kept. -/
def Row.isKept (row : Row) : Bool := row.kind = .keep

/-- Every block of a walk fits somewhere. -/
theorem Walks.fits_of_mem {blocks : List Block} (walk : Walks sides p blocks q) {block : Block}
    (member : block ∈ blocks) : ∃ s, block.Fits sides s := by
  induction blocks generalizing p with
  | nil => contradiction
  | cons first more ih =>
    obtain ⟨fits, onward⟩ := walk
    obtain rfl | later := List.mem_cons.mp member
    · exact ⟨p, fits⟩
    · exact ih onward later

/-- A block that fits has rows. -/
theorem Block.Fits.rows_ne_nil {block : Block} (fits : block.Fits sides p) :
    block.rows sides ≠ [] := by
  intro none
  have old := congrArg List.length fits.oldLines_rows
  have new := congrArg List.length fits.newLines_rows
  rw [none, length_linesAt fits.oldWithin] at old
  rw [none, length_linesAt fits.newWithin] at new
  have filled := fits.filled
  simp only [oldLines, newLines, List.filter_nil, List.map_nil, List.length_nil] at old new
  omega

/-- The rows of a block are kept when the block is. -/
theorem isKept_of_mem_rows {block : Block} {row : Row} (member : row ∈ block.rows sides) :
    row.isKept = block.same := by
  unfold Block.rows at member
  simp only at member
  split at member
  next same =>
    obtain ⟨line, -, rfl⟩ := List.mem_map.mp member
    simp [Row.isKept, same]
  next changed =>
    obtain member | member := List.mem_append.mp member
    · obtain ⟨line, -, rfl⟩ := List.mem_map.mp member
      simp [Row.isKept, changed]
    · obtain ⟨line, -, rfl⟩ := List.mem_map.mp member
      simp [Row.isKept, changed]

/-- Kept lines are no more rows than they are lines. -/
theorem length_rows_le {block : Block} (same : block.same = true) :
    (block.rows sides).length ≤ block.oldLength := by
  unfold Block.rows
  simp only [same, if_true, List.length_map, linesAt_eq, List.length_take]
  exact Nat.min_le_left ..

/-- Rows of blocks that alternate start with few kept ones when the first block has few lines. The
rows of each block may stand in any order. -/
theorem length_takeWhile_le {rowsIn : Block → List Row} {blocks : List Block} {count : Nat}
    (alternate : Alternate blocks)
    (filled : ∀ block ∈ blocks, rowsIn block ≠ [])
    (kept : ∀ block, ∀ row ∈ rowsIn block, row.isKept = block.same)
    (few : ∀ block ∈ blocks.head?, block.same = true → (rowsIn block).length ≤ count) :
    ((blocks.flatMap rowsIn).takeWhile Row.isKept).length ≤ count := by
  -- A changed block ends the kept rows in front of it.
  have stops (block : Block) (changed : block.same = false) (some : rowsIn block ≠ [])
      (more : List Row) : (rowsIn block ++ more).takeWhile Row.isKept = [] := by
    cases rows : rowsIn block with
    | nil => exact absurd rows some
    | cons row others =>
      have first := kept block row (by simp [rows])
      rw [List.cons_append, List.takeWhile_cons_of_neg (by simp [first, changed])]
  cases blocks with
  | nil => simp
  | cons first more =>
    rw [List.flatMap_cons]
    cases same : first.same with
    | false =>
      rw [stops first same (filled first List.mem_cons_self)]
      exact Nat.zero_le _
    | true =>
      have whole : ∀ row ∈ rowsIn first, row.isKept = true := fun row member => by
        rw [kept first row member, same]
      have rest : (more.flatMap rowsIn).takeWhile Row.isKept = [] := by
        cases more with
        | nil => rfl
        | cons second others =>
          have apart := (List.isChain_cons_cons.mp alternate).1
          rw [same] at apart
          exact stops second (by simpa using apart.symm)
            (filled second (List.mem_cons_of_mem _ List.mem_cons_self)) _
      rw [List.takeWhile_append_of_pos whole, rest, List.append_nil]
      exact few first rfl same

/-- Blocks that alternate do so in reverse. -/
theorem Alternate.reverse {blocks : List Block} (alternate : Alternate blocks) :
    Alternate blocks.reverse := by
  unfold Alternate at *
  rw [List.map_reverse, List.isChain_reverse]
  exact alternate.imp fun _ _ => Ne.symm

/-- A tight hunk shows few kept rows at either end and has a changed one. -/
theorem Tight.rows {blocks : List Block} (tight : Tight blocks)
    (changed : ∃ block ∈ blocks, block.same = false) (walk : Walks sides p blocks q) :
    ((rowsOf sides blocks).takeWhile Row.isKept).length ≤ context ∧
      ((rowsOf sides blocks).reverse.takeWhile Row.isKept).length ≤ context ∧
      ∃ row ∈ rowsOf sides blocks, row.isKept = false := by
  have filled : ∀ block ∈ blocks, block.rows sides ≠ [] := fun block member => by
    obtain ⟨s, fits⟩ := walk.fits_of_mem member
    exact fits.rows_ne_nil
  refine ⟨?_, ?_, ?_⟩
  · exact length_takeWhile_le tight.alternate filled (fun _ _ => isKept_of_mem_rows)
      fun block first same => Nat.le_trans (length_rows_le same) (tight.first block first same)
  · have reversed : (rowsOf sides blocks).reverse =
        blocks.reverse.flatMap fun block => (block.rows sides).reverse := by
      simp [rowsOf, List.reverse_flatMap, Function.comp_def]
    rw [reversed]
    refine length_takeWhile_le tight.alternate.reverse ?_ ?_ ?_
    · simpa using filled
    · exact fun block row member => isKept_of_mem_rows (List.mem_reverse.mp member)
    · intro block last same
      rw [List.head?_reverse] at last
      rw [List.length_reverse]
      exact Nat.le_trans (length_rows_le same) (tight.last block last same)
  · obtain ⟨block, member, changed⟩ := changed
    obtain ⟨row, inside⟩ := List.exists_mem_of_ne_nil _ (filled block member)
    exact ⟨row, List.mem_flatMap.mpr ⟨block, member, inside⟩, by
      rw [isKept_of_mem_rows inside, changed]⟩

/-! ## Heads -/

/-- The head that a hunk in its place asks for. -/
def Hunk.head (hunk : Hunk) : Head where
  oldStart := firstNumber hunk.place.old (oldLines hunk.rows).length
  oldCount := (oldLines hunk.rows).length
  newStart := firstNumber hunk.place.new (newLines hunk.rows).length
  newCount := (newLines hunk.rows).length

/-- Whether the first block of a hunk starts where the hunk does and its last block stops where the
hunk does. -/
def EndsPlaced (blocks : List Block) (hunk : Hunk) : Prop :=
  (∀ first ∈ blocks.head?, first.old = hunk.place.old ∧ first.new = hunk.place.new) ∧
    ∀ last ∈ blocks.getLast?, last.old + last.oldLength = hunk.stop.old ∧
      last.new + last.newLength = hunk.stop.new

/-- Ranges with the same numbers are the same. -/
theorem firstNumber_inj {s t count : Nat} : firstNumber s count = firstNumber t count ↔ s = t := by
  unfold firstNumber
  split <;> simp

/-- A head says what the hunk asks for exactly when its range starts and ends there. -/
theorem head_between_eq_iff {first last : Block} {hunk : Hunk} :
    Head.between first last = hunk.head ↔
      (first.old = hunk.place.old ∧
        last.old + last.oldLength - first.old = (oldLines hunk.rows).length) ∧
      first.new = hunk.place.new ∧
        last.new + last.newLength - first.new = (newLines hunk.rows).length := by
  simp only [Head.between, Hunk.head, Head.mk.injEq]
  constructor
  · rintro ⟨oldStart, oldCount, newStart, newCount⟩
    rw [oldCount] at oldStart
    rw [newCount] at newStart
    exact ⟨⟨firstNumber_inj.mp oldStart, oldCount⟩, firstNumber_inj.mp newStart, newCount⟩
  · rintro ⟨⟨oldStart, oldCount⟩, newStart, newCount⟩
    rw [oldCount, newCount, oldStart, newStart]
    exact ⟨rfl, rfl, rfl, rfl⟩

/-- Alternating blocks without old lines, or without new lines, are one block. -/
theorem length_eq_one_of_none {blocks : List Block} (alternate : Alternate blocks)
    (walk : Walks sides p blocks q) (some : blocks ≠ []) (none : q.old = p.old ∨ q.new = p.new) :
    ∃ block, blocks = [block] := by
  obtain ⟨first, more, rfl⟩ := List.exists_cons_of_ne_nil some
  cases more with
  | nil => exact ⟨first, rfl⟩
  | cons second others =>
    obtain ⟨fits, onward, walk⟩ := walk
    have further := walk.le
    simp only [Block.stop, Point.ahead_old, Point.ahead_new] at further
    have apart := (List.isChain_cons_cons.mp alternate).1
    have filled := fits.filled
    have filled' := onward.filled
    cases same : first.same with
    | true =>
      have := fits.even same
      omega
    | false =>
      have := onward.even (by simpa [same] using apart.symm)
      omega

/-- The head of a hunk is right exactly when the blocks at its ends are where they say. -/
theorem head_eq_iff {blocks : List Block} {hunk : Hunk} (alternate : Alternate blocks)
    (some : blocks ≠ []) (shows : Shows sides blocks hunk) :
    (Printed.ofBlocks sides blocks).head = hunk.head ↔ EndsPlaced blocks hunk := by
  obtain ⟨-, walk⟩ := shows
  have head := List.head?_eq_some_head some
  have last := List.getLast?_eq_some_getLast some
  have single := length_eq_one_of_none alternate walk some
  simp only [Printed.ofBlocks, EndsPlaced, head, last, Option.mem_some_iff, forall_eq']
  rw [head_between_eq_iff]
  simp only [Hunk.stop, Point.ahead_old, Point.ahead_new] at single ⊢
  constructor
  · rintro ⟨⟨oldStart, oldCount⟩, newStart, newCount⟩
    by_cases none : (oldLines hunk.rows).length = 0 ∨ (newLines hunk.rows).length = 0
    · obtain ⟨block, rfl⟩ := single (by omega)
      simp only [List.head_cons, List.getLast_singleton] at *
      omega
    · omega
  · omega

/-- Kept lines know their positions in both texts. -/
theorem Block.Fits.place {block : Block} (fits : block.Fits sides p) (same : block.same = true) :
    block.old = p.old ∧ block.new = p.new := by
  have filled := fits.filled
  have even := fits.even same
  exact ⟨fits.oldPlace (by omega), fits.newPlace (by omega)⟩

/-- A hunk that begins and ends with kept lines has its ends in place. -/
theorem endsPlaced_of_kept {blocks : List Block} {hunk : Hunk} (shows : Shows sides blocks hunk)
    (first : ∀ row ∈ hunk.rows.head?, row.isKept = true)
    (last : ∀ row ∈ hunk.rows.getLast?, row.isKept = true) : EndsPlaced blocks hunk := by
  obtain ⟨rows, walk⟩ := shows
  rw [rows] at first last
  constructor
  · intro block head
    obtain ⟨more, rfl⟩ := List.head?_eq_some_iff.mp head
    obtain ⟨fits, -⟩ := walk
    have row := List.head?_eq_some_head fits.rows_ne_nil
    have kept := first ((block.rows sides).head fits.rows_ne_nil)
      (by simp [rowsOf, List.head?_append, row])
    rw [isKept_of_mem_rows (List.head_mem _)] at kept
    exact fits.place kept
  · intro block tail
    obtain ⟨init, rfl⟩ := List.getLast?_eq_some_iff.mp tail
    obtain ⟨s, -, fits, stop⟩ := walks_append.mp walk
    have row := List.getLast?_eq_some_getLast fits.rows_ne_nil
    have kept := last ((block.rows sides).getLast fits.rows_ne_nil)
      (by simp [rowsOf, List.getLast?_append, row])
    rw [isKept_of_mem_rows (List.getLast_mem _)] at kept
    obtain ⟨oldPlace, newPlace⟩ := fits.place kept
    rw [← walks_nil.mp stop, oldPlace, newPlace]
    exact ⟨rfl, rfl⟩

/-! ## Equal texts -/

/-- A text has all its lines in common with itself. -/
theorem commonStart_self (lines : List Text) : commonStart lines lines = lines.length := by
  induction lines with
  | nil => rfl
  | cons line more ih => simp [commonStart, ih]

/-- The script between a text and itself keeps its lines. -/
theorem script_self (text : Text) :
    script text text = unlessEmpty ⟨.keep, 0, 0, (Text.lines text).length⟩ := by
  have whole : trim (Text.lines text) (Text.lines text) =
      ⟨(Text.lines text).length, [], [], 0⟩ := by
    simp [trim, commonStart_self, commonEnd]
  have kept : scriptFrom 0 0 (Text.lines text) (Text.lines text) =
      unlessEmpty ⟨.keep, 0, 0, (Text.lines text).length⟩ := by
    unfold scriptFrom
    simp only
    split
    next cut found =>
      rw [whole] at found
      simp [cut?] at found
    next => simp [whole, unlessEmpty]
  unfold script
  simp only [kept]
  unfold unlessEmpty
  split
  · simp [compact, slideKind]
  · simp [compact, slideKind]

/-- Between a text and itself there are no hunks. -/
theorem hunks_script_self (text : Text) : hunks (script text text) = [] := by
  rw [script_self]
  unfold unlessEmpty
  split
  · simp [hunks, blocks, trimFirst, trimLast, group]
  · have few : ¬ 6 < min ((Text.lines text).length - ((Text.lines text).length - 3)) 3 := by omega
    simp [hunks, blocks, Block.ofEdit, Block.cons, trimFirst, trimLast, group, Block.dropLines,
      Block.takeLines, context, few]

/-- There are hunks exactly between different texts. -/
theorem hunks_script_eq_nil_iff {old new : Text} : hunks (script old new) = [] ↔ old = new := by
  constructor
  · intro none
    have spans := spans_hunks (leads_script old new)
    rw [none] at spans
    obtain ⟨count, stop, agree⟩ := spans
    obtain ⟨oldCount, newCount⟩ := Point.mk.inj stop
    have same : Text.lines old = Text.lines new := by
      simp only [Nat.zero_add] at oldCount newCount
      unfold Agree at agree
      simp only [sidesOf, linesAt_eq, List.drop_zero] at agree
      rwa [← oldCount, List.take_length, oldCount, ← newCount, List.take_length] at agree
    rw [← Text.flatten_lines old, same, Text.flatten_lines]
  · rintro rfl
    exact hunks_script_self old

/-! ## The whole patch -/

/-- What the blocks of a hunk, as they are read from a patch, tell about the hunk in its place. -/
structure Tells (sides : Sides) (blocks : List Block) (hunk : Hunk) : Prop where
  /-- The rows that are read are the rows of the hunk. -/
  rows : (Printed.ofBlocks sides blocks).rows = hunk.rows
  /-- Few kept rows stand in front of the first changed one. -/
  before : (hunk.rows.takeWhile Row.isKept).length ≤ context
  /-- Few kept rows stand behind the last changed one. -/
  behind : (hunk.rows.reverse.takeWhile Row.isKept).length ≤ context
  /-- There is a changed row. -/
  changed : ∃ row ∈ hunk.rows, row.isKept = false
  /-- The head that is read is right exactly when the blocks at the ends are where they say. -/
  head : (Printed.ofBlocks sides blocks).head = hunk.head ↔ EndsPlaced blocks hunk
  /-- They are when the hunk begins and ends with kept rows. -/
  kept : (∀ row ∈ hunk.rows.head?, row.isKept = true) →
    (∀ row ∈ hunk.rows.getLast?, row.isKept = true) → EndsPlaced blocks hunk

/-- A tight hunk with a change tells about itself. -/
theorem Tight.tells {blocks : List Block} {hunk : Hunk} (tight : Tight blocks)
    (changed : ∃ block ∈ blocks, block.same = false) (shows : Shows sides blocks hunk) :
    Tells sides blocks hunk := by
  have some : blocks ≠ [] := by
    rintro rfl
    obtain ⟨block, inside, -⟩ := changed
    contradiction
  obtain ⟨before, behind, row⟩ := tight.rows changed shows.2
  rw [← shows.1] at before behind row
  exact ⟨shows.1.symm, before, behind, row, head_eq_iff tight.alternate some shows,
    endsPlaced_of_kept shows⟩

/-- The hunks of a script in their places. -/
theorem exists_tells (old new : Text) : ∃ placed : List Hunk,
    List.Forall₂ (Tells (sidesOf old new)) (hunks (script old new)) placed ∧
      patched? ⟨0, 0⟩ placed (Text.lines old) = some (Text.lines new) ∧ InOrder placed := by
  obtain ⟨placed, shown, applied, inOrder, -⟩ := exists_places (spans_hunks (leads_script old new))
    (by simp [sidesOf]) (by simp [sidesOf])
  refine ⟨placed, ?_, ?_, inOrder⟩
  · have tight := tight_hunks (script old new)
    refine ((List.forall₂_and_left _ _).mpr ⟨tight, shown⟩).imp ?_
    rintro blocks hunk ⟨⟨tight, changed⟩, shows⟩
    exact tight.tells changed shows
  · simpa [sidesOf, linesAt_eq] using applied

/-- A patch is empty exactly between a text and itself. -/
theorem render_eq_nil_iff {name old new : Text} : render name old new = [] ↔ old = new := by
  refine Iff.trans ⟨fun empty => ?_, fun none => ?_⟩ hunks_script_eq_nil_iff
  · by_contra changed
    rw [render_eq name changed] at empty
    contradiction
  · unfold render
    rw [none]

/-- A patch is empty exactly when both texts are the same. Otherwise it is read as the name of the
file and hunks that stand in order, apply to the lines of the old text and make the lines of the
new one out of them, each with few kept rows around its changes. The head of a hunk is right
exactly when the blocks at its ends are where they say, and so whenever it begins and ends with
kept rows. -/
theorem read_rendered {name : Text} (plain : '\n' ∉ name) (old new : Text) :
    (render name old new = [] ↔ old = new) ∧
      (old ≠ new → ∃ placed : List Hunk,
        read? (render name old new) =
            some (name, (hunks (script old new)).map (Printed.ofBlocks (sidesOf old new))) ∧
          List.Forall₂ (Tells (sidesOf old new)) (hunks (script old new)) placed ∧
          patched? ⟨0, 0⟩ placed (Text.lines old) = some (Text.lines new) ∧ InOrder placed) := by
  refine ⟨render_eq_nil_iff, fun differ => ?_⟩
  obtain ⟨placed, tells, applied, inOrder⟩ := exists_tells old new
  exact ⟨placed, read?_render plain (mt hunks_script_eq_nil_iff.mp differ), tells, applied, inOrder⟩

/-- A line that is replaced between two that stay. -/
theorem read_rendered_between : '\n' ∉ "a.py".toList ∧ "a\nb\nc".toList ≠ "a\nx\r\nc".toList ∧
    ∃ placed : List Hunk,
      read? (render "a.py".toList "a\nb\nc".toList "a\nx\r\nc".toList) =
          some ("a.py".toList, (hunks (script "a\nb\nc".toList "a\nx\r\nc".toList)).map
            (Printed.ofBlocks (sidesOf "a\nb\nc".toList "a\nx\r\nc".toList))) ∧
        List.Forall₂ (Tells (sidesOf "a\nb\nc".toList "a\nx\r\nc".toList))
          (hunks (script "a\nb\nc".toList "a\nx\r\nc".toList)) placed ∧
        patched? ⟨0, 0⟩ placed (Text.lines "a\nb\nc".toList) =
          some (Text.lines "a\nx\r\nc".toList) ∧ InOrder placed :=
  have plain : '\n' ∉ "a.py".toList := by decide
  have differ : "a\nb\nc".toList ≠ "a\nx\r\nc".toList := by decide
  ⟨plain, differ, (read_rendered plain "a\nb\nc".toList "a\nx\r\nc".toList).2 differ⟩

/-! ## A head that is wrong

From the lines `a` and `b` to two lines `b`, the search inserts in front of `a`, deletes `a` and
keeps `b`. The insertion passes the deletion, which keeps saying that one new line stands before it,
and slides down past `b`. The hunk starts with this deletion. -/

/-- The divided problem, with its cut and what is shared at both ends. -/
theorem scriptFrom_eq (s t : Nat) (old new : List Text) : scriptFrom s t old new =
    let parts := trim old new
    unlessEmpty ⟨.keep, s, t, parts.leading⟩ ++
      (match cut? parts.old parts.new with
        | some p =>
          scriptFrom (s + parts.leading) (t + parts.leading) (parts.old.take p.old)
              (parts.new.take p.new) ++
            scriptFrom (s + parts.leading + p.old) (t + parts.leading + p.new)
              (parts.old.drop p.old) (parts.new.drop p.new)
        | none =>
          unlessEmpty ⟨.delete, s + parts.leading, t + parts.leading, parts.old.length⟩ ++
            unlessEmpty ⟨.insert, s + parts.leading, t + parts.leading, parts.new.length⟩) ++
      unlessEmpty ⟨.keep, s + parts.leading + parts.old.length,
        t + parts.leading + parts.new.length, parts.trailing⟩ := by
  rw [scriptFrom]
  split
  next p found => simp only [found]
  next none => simp only [none]

/-- The search inserts first and deletes then. -/
theorem scriptFrom_passed :
    scriptFrom 0 0 ["a\n".toList, "b\n".toList] ["b\n".toList, "b\n".toList] =
      [⟨.insert, 0, 0, 1⟩, ⟨.delete, 0, 1, 1⟩, ⟨.keep, 1, 1, 1⟩] := by
  have parts : trim ["a\n".toList, "b\n".toList] ["b\n".toList, "b\n".toList] =
      ⟨0, ["a\n".toList], ["b\n".toList], 1⟩ := rfl
  have cut : cut? ["a\n".toList] ["b\n".toList] = some ⟨0, 1⟩ := by decide
  have inserted : scriptFrom 0 0 [] ["b\n".toList] = [⟨.insert, 0, 0, 1⟩] := by
    rw [scriptFrom_eq]
    rfl
  have deleted : scriptFrom 0 1 ["a\n".toList] [] = [⟨.delete, 0, 1, 1⟩] := by
    rw [scriptFrom_eq]
    rfl
  rw [scriptFrom_eq, parts]
  simp only [cut]
  change unlessEmpty _ ++
    (scriptFrom 0 0 [] ["b\n".toList] ++ scriptFrom 0 1 ["a\n".toList] []) ++ unlessEmpty _ = _
  rw [inserted, deleted]
  rfl

/-- The deletion at the start of the hunk says that a new line stands before it. -/
theorem hunks_passed : hunks (script "a\nb\n".toList "b\nb\n".toList) =
    [[⟨false, 0, 1, 1, 0⟩, ⟨true, 1, 1, 0, 1⟩, ⟨false, 1, 0, 1, 1⟩]] := by
  have old : Text.lines "a\nb\n".toList = ["a\n".toList, "b\n".toList] := by decide
  have new : Text.lines "b\nb\n".toList = ["b\n".toList, "b\n".toList] := by decide
  have tidy : script "a\nb\n".toList "b\nb\n".toList =
      [⟨.delete, 0, 1, 1⟩, ⟨.keep, 1, 0, 1⟩, ⟨.insert, 1, 1, 1⟩] := by
    unfold script
    simp only [old, new, scriptFrom_passed]
    cbv
  rw [tidy]
  decide

/-- The head says one old line and one new line, the second; the hunk has two of each. No place of
the hunk makes this right. -/
theorem misplaced_head : render "f".toList "a\nb\n".toList "b\nb\n".toList =
      "--- a/f\n+++ b/f\n@@ -1 +2 @@\n-a\n b\n+b\n".toList ∧
    ∃ printed : Printed,
      read? (render "f".toList "a\nb\n".toList "b\nb\n".toList) =
          some ("f".toList, [printed]) ∧
        ∀ place : Point, printed.head ≠ (Hunk.mk place printed.rows).head := by
  have changed : hunks (script "a\nb\n".toList "b\nb\n".toList) ≠ [] := by
    rw [hunks_passed]
    simp
  constructor
  · rw [render_eq _ changed, hunks_passed]
    decide +kernel
  · rw [read?_render (by decide) changed, hunks_passed]
    refine ⟨_, rfl, fun place same => ?_⟩
    have count : 1 = 2 := congrArg Head.oldCount same
    contradiction

end LicenseHeader.Patch
