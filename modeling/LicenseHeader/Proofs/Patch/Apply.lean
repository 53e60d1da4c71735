import LicenseHeader.Proofs.Patch.Group
import Mathlib.Data.List.Forall2

/-!
# Applying a patch

A patch is applied with no more than its rows and the places of its hunks: the lines between hunks
stay, and each hunk replaces its old lines, which have to stand there, by its new ones
(`Patch.patched?`). `Patch.exists_places` gives the hunks of a script places where the patch applies
to the old lines and makes the new ones out of them.
-/

namespace LicenseHeader.Patch

/-- A line of a hunk and what happens to it. -/
structure Row where
  /-- What happens to the line. -/
  kind : EditKind
  /-- The line with its terminator. -/
  line : Text
  deriving DecidableEq, Repr

/-- The lines that rows take from the old text. -/
def oldLines (rows : List Row) : List Text :=
  (rows.filter fun row => row.kind ≠ .insert).map Row.line

/-- The lines that rows take from the new text. -/
def newLines (rows : List Row) : List Text :=
  (rows.filter fun row => row.kind ≠ .delete).map Row.line

/-- The rows of a hunk and its place. -/
structure Hunk where
  /-- How many old and how many new lines stand before the hunk. -/
  place : Point
  /-- The rows of the hunk. -/
  rows : List Row
  deriving DecidableEq, Repr

/-- How many old and how many new lines stand before what follows a hunk. -/
def Hunk.stop (hunk : Hunk) : Point :=
  hunk.place.ahead (oldLines hunk.rows).length (newLines hunk.rows).length

/-- The new lines from a point on that hunks make out of the old lines from this point on. Lines in
front of a hunk stay; where the old lines of a hunk do not stand at its place, or its place leaves
no room for what comes before it, the hunks do not apply. -/
def patched? : Point → List Hunk → List Text → Option (List Text)
  | _, [], lines => some lines
  | p, hunk :: more, lines =>
    let count := hunk.place.old - p.old
    let rest := lines.drop count
    if hunk.place = p.ahead count count ∧ count ≤ lines.length ∧ oldLines hunk.rows <+: rest then
      (patched? hunk.stop more (rest.drop (oldLines hunk.rows).length)).map fun after =>
        lines.take count ++ newLines hunk.rows ++ after
    else none

/-- Whether every hunk ends, in both texts, before the next ones start. -/
def InOrder (hunks : List Hunk) : Prop :=
  hunks.Pairwise fun first second =>
    first.stop.old ≤ second.place.old ∧ first.stop.new ≤ second.place.new

/-- A first hunk behind lines that stay. -/
theorem patched?_cons {p : Point} {hunk : Hunk} {more : List Hunk} {kept rest after : List Text}
    (place : hunk.place = p.ahead kept.length kept.length)
    (applied : patched? hunk.stop more rest = some after) :
    patched? p (hunk :: more) (kept ++ (oldLines hunk.rows ++ rest)) =
      some (kept ++ (newLines hunk.rows ++ after)) := by
  have count : hunk.place.old - p.old = kept.length := by simp [place]
  unfold patched?
  simp only [count]
  rw [List.drop_left, List.drop_left, if_pos ⟨place, by simp, List.prefix_append ..⟩, applied]
  simp

/-! ## Rows of blocks -/

variable {sides : Sides} {p q : Point}

/-- The rows of a block. -/
def Block.rows (sides : Sides) (block : Block) : List Row :=
  let old := linesAt sides.old block.old block.oldLength
  if block.same then old.map (Row.mk .keep)
  else old.map (Row.mk .delete) ++
    (linesAt sides.new block.new block.newLength).map (Row.mk .insert)

/-- Rows after others take their lines after those of the others. -/
theorem oldLines_append (first second : List Row) :
    oldLines (first ++ second) = oldLines first ++ oldLines second := by
  simp [oldLines]

/-- Rows after others take their lines after those of the others. -/
theorem newLines_append (first second : List Row) :
    newLines (first ++ second) = newLines first ++ newLines second := by
  simp [newLines]

/-- The old lines of rows that are all of one kind. -/
theorem oldLines_map (kind : EditKind) (lines : List Text) :
    oldLines (lines.map (Row.mk kind)) = if kind = .insert then [] else lines := by
  cases kind <;> simp [oldLines, List.filter_map, Function.comp_def]

/-- The new lines of rows that are all of one kind. -/
theorem newLines_map (kind : EditKind) (lines : List Text) :
    newLines (lines.map (Row.mk kind)) = if kind = .delete then [] else lines := by
  cases kind <;> simp [newLines, List.filter_map, Function.comp_def]

/-- The position of lines does not matter when there are none. -/
theorem linesAt_congr {lines : Array Text} {s t count : Nat} (same : 0 < count → s = t) :
    linesAt lines s count = linesAt lines t count := by
  obtain rfl | some := Nat.eq_zero_or_pos count
  · simp
  · rw [same some]

/-- The rows of a block take the old lines where the block starts. -/
theorem Block.Fits.oldLines_rows {block : Block} (fits : block.Fits sides p) :
    oldLines (block.rows sides) = linesAt sides.old p.old block.oldLength := by
  rw [← linesAt_congr fits.oldPlace]
  unfold Block.rows
  split
  · rw [oldLines_map]
    rfl
  · rw [oldLines_append, oldLines_map, oldLines_map]
    simp

/-- The rows of a block take the new lines where the block starts. -/
theorem Block.Fits.newLines_rows {block : Block} (fits : block.Fits sides p) :
    newLines (block.rows sides) = linesAt sides.new p.new block.newLength := by
  unfold Block.rows
  split
  next same =>
    have agree := fits.agree same
    rw [newLines_map, linesAt_congr fits.oldPlace, fits.even same]
    exact agree
  next =>
    rw [newLines_append, newLines_map, newLines_map, linesAt_congr fits.newPlace]
    simp

/-- The rows of blocks. -/
def rowsOf (sides : Sides) (blocks : List Block) : List Row := blocks.flatMap (Block.rows sides)

/-- The rows of blocks take the lines that the blocks lead through. -/
theorem Walks.lines_rowsOf {blocks : List Block} (walk : Walks sides p blocks q) :
    oldLines (rowsOf sides blocks) = linesAt sides.old p.old (q.old - p.old) ∧
      newLines (rowsOf sides blocks) = linesAt sides.new p.new (q.new - p.new) := by
  induction blocks generalizing p with
  | nil =>
    obtain rfl := walks_nil.mp walk
    simp [rowsOf, oldLines, newLines]
  | cons block more ih =>
    obtain ⟨fits, onward⟩ := walk
    obtain ⟨old, new⟩ := ih onward
    have further := onward.le
    simp only [Block.stop, Point.ahead_old, Point.ahead_new] at old new further
    constructor
    · rw [show q.old - p.old = block.oldLength + (q.old - (p.old + block.oldLength)) by omega,
        linesAt_add, ← fits.oldLines_rows, ← old, ← oldLines_append]
      rfl
    · rw [show q.new - p.new = block.newLength + (q.new - (p.new + block.newLength)) by omega,
        linesAt_add, ← fits.newLines_rows, ← new, ← newLines_append]
      rfl

/-! ## Places of hunks -/

/-- What hunks cover does not go back. -/
theorem Spans.le {hunks : List (List Block)} (spans : Spans sides p hunks q) :
    p.old ≤ q.old ∧ p.new ≤ q.new := by
  induction hunks generalizing p with
  | nil =>
    obtain ⟨count, rfl, -⟩ := spans
    exact ⟨Nat.le_add_right .., Nat.le_add_right ..⟩
  | cons hunk more ih =>
    obtain ⟨start, stop, ⟨count, rfl, -⟩, walk, onward⟩ := spans
    have within := walk.le
    have further := ih onward
    simp only [Point.ahead_old, Point.ahead_new] at within
    omega

/-- A hunk with the rows of blocks in the place where the blocks start. -/
def Shows (sides : Sides) (blocks : List Block) (hunk : Hunk) : Prop :=
  hunk.rows = rowsOf sides blocks ∧ Walks sides hunk.place blocks hunk.stop

/-- The rows of a walk, placed at its start, stop at its end. -/
theorem Walks.shows {blocks : List Block} (walk : Walks sides p blocks q)
    (oldWithin : q.old ≤ sides.old.size) (newWithin : q.new ≤ sides.new.size) :
    (Hunk.mk p (rowsOf sides blocks)).stop = q ∧
      Shows sides blocks ⟨p, rowsOf sides blocks⟩ := by
  obtain ⟨old, new⟩ := walk.lines_rowsOf
  have further := walk.le
  have stop : (Hunk.mk p (rowsOf sides blocks)).stop = q := by
    rw [Hunk.stop, old, new, length_linesAt (by omega), length_linesAt (by omega)]
    obtain ⟨qOld, qNew⟩ := q
    simp only [Point.ahead, Point.mk.injEq] at *
    omega
  exact ⟨stop, rfl, by rwa [stop]⟩

/-- The lines of a text from a point to a further one are those up to any point between and those
from there on. -/
theorem linesAt_sub {lines : Array Text} {s t u : Nat} (first : s ≤ t) (second : t ≤ u) :
    linesAt lines s (u - s) = linesAt lines s (t - s) ++ linesAt lines t (u - t) := by
  rw [show u - s = (t - s) + (u - t) by omega, linesAt_add, Nat.add_sub_cancel' first]

/-- Hunks that cover the lines between two points have places where they apply to the old lines and
make the new ones out of them. -/
theorem exists_places {found : List (List Block)} (spans : Spans sides p found q)
    (oldWithin : q.old ≤ sides.old.size) (newWithin : q.new ≤ sides.new.size) :
    ∃ placed : List Hunk, List.Forall₂ (Shows sides) found placed ∧
      patched? p placed (linesAt sides.old p.old (q.old - p.old)) =
        some (linesAt sides.new p.new (q.new - p.new)) ∧
      InOrder placed ∧ ∀ hunk ∈ placed, p.old ≤ hunk.place.old ∧ p.new ≤ hunk.place.new := by
  induction found generalizing p with
  | nil =>
    obtain ⟨count, rfl, agree⟩ := spans
    refine ⟨[], .nil, ?_, .nil, by simp⟩
    simp only [patched?, Point.ahead_old, Point.ahead_new, Nat.add_sub_cancel_left]
    exact congrArg some agree
  | cons blocks more ih =>
    obtain ⟨start, stop, ⟨count, rfl, agree⟩, walk, onward⟩ := spans
    obtain ⟨placed, shown, applied, inOrder, behind⟩ := ih onward
    have within := walk.le
    have further := onward.le
    simp only [Point.ahead_old, Point.ahead_new] at within
    obtain ⟨ends, shows⟩ := walk.shows (by omega) (by omega)
    refine ⟨⟨p.ahead count count, rowsOf sides blocks⟩ :: placed, .cons shows shown, ?_,
      List.pairwise_cons.mpr ⟨?_, inOrder⟩, ?_⟩
    · obtain ⟨old, new⟩ := walk.lines_rowsOf
      rw [Point.ahead_old] at old
      rw [Point.ahead_new] at new
      have oldKept : linesAt sides.old p.old (q.old - p.old) = _ :=
        linesAt_sub (Nat.le_add_right p.old count) (Nat.le_trans within.1 further.1)
      have newKept : linesAt sides.new p.new (q.new - p.new) = _ :=
        linesAt_sub (Nat.le_add_right p.new count) (Nat.le_trans within.2 further.2)
      rw [Nat.add_sub_cancel_left] at oldKept newKept
      rw [oldKept, newKept, ← agree, linesAt_sub within.1 further.1,
        linesAt_sub within.2 further.2, ← old, ← new]
      refine patched?_cons ?_ (by rw [ends]; exact applied)
      rw [length_linesAt (by omega)]
    · intro hunk member
      rw [ends]
      exact behind hunk member
    · intro hunk member
      obtain rfl | member := List.mem_cons.mp member
      · exact ⟨Nat.le_add_right .., Nat.le_add_right ..⟩
      · have := behind hunk member
        omega

end LicenseHeader.Patch
