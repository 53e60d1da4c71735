import LicenseHeader.Patch.Compact

/-!
# Hunks

The blocks of an edit script are runs of kept lines and changes between them. A hunk is some blocks
that lie close together, with at most `Patch.context` kept lines around them.
-/

namespace LicenseHeader.Patch

/-- A run of lines in the old text and the run of lines in the new text that stands in its place. -/
structure Block where
  /-- Whether the lines are kept. -/
  same : Bool
  /-- Where the lines start in the old text. -/
  old : Nat
  /-- How many lines of the old text there are. -/
  oldLength : Nat
  /-- Where the lines start in the new text. -/
  new : Nat
  /-- How many lines of the new text there are. -/
  newLength : Nat
  deriving DecidableEq, Repr

namespace Block

/-- The block of one edit. -/
def ofEdit (edit : Edit) : Block :=
  match edit.kind with
  | .keep => ⟨true, edit.old, edit.length, edit.new, edit.length⟩
  | .delete => ⟨false, edit.old, edit.length, edit.new, 0⟩
  | .insert => ⟨false, edit.old, 0, edit.new, edit.length⟩

/-- The block of two adjacent blocks that are both kept or both changed. The position in a text is
that of the first block with lines of this text. -/
def merge (first second : Block) : Block where
  same := first.same
  old := if first.oldLength = 0 then second.old else first.old
  oldLength := first.oldLength + second.oldLength
  new := if first.newLength = 0 then second.new else first.new
  newLength := first.newLength + second.newLength

/-- Blocks with one more in front, merged with the first if both are kept or both changed. -/
def cons (first : Block) : List Block → List Block
  | [] => [first]
  | second :: more =>
    if first.same = second.same then first.merge second :: more else first :: second :: more

/-- The block without its first `count` lines. -/
def dropLines (block : Block) (count : Nat) : Block :=
  { block with
    old := block.old + count
    oldLength := block.oldLength - count
    new := block.new + count
    newLength := block.newLength - count }

/-- The block with no more than its first `count` lines. -/
def takeLines (block : Block) (count : Nat) : Block :=
  { block with
    oldLength := min block.oldLength count
    newLength := min block.newLength count }

end Block

/-- The blocks of an edit script; kept lines and changes alternate. -/
def blocks (script : List Edit) : List Block :=
  script.foldr (fun edit rest => (Block.ofEdit edit).cons rest) []

/-- How many kept lines are shown around a change. -/
def context : Nat := 3

/-- A first block without more kept lines than are shown before a change. -/
def trimFirst : List Block → List Block
  | [] => []
  | first :: more =>
    (if first.same then first.dropLines (first.oldLength - context) else first) :: more

/-- A last block without more kept lines than are shown after a change. -/
def trimLast : List Block → List Block
  | [] => []
  | [last] => [if last.same then last.takeLines context else last]
  | first :: second :: more => first :: trimLast (second :: more)

/-- The hunks of blocks, where `pending` are the blocks of the hunk under way in reverse. A run of
kept lines that is longer than the lines shown on both sides of it ends a hunk and starts the
next. -/
def group (pending : List Block) : List Block → List (List Block)
  | [] => if pending.all (·.same) then [] else [pending.reverse]
  | block :: more =>
    if block.same && 2 * context < block.oldLength then
      (block.takeLines context :: pending).reverse ::
        group [block.dropLines (block.oldLength - context)] more
    else group (block :: pending) more

/-- The hunks of an edit script. -/
def hunks (script : List Edit) : List (List Block) :=
  group [] (trimLast (trimFirst (blocks script)))

/-- A range of lines as it is written at the head of a hunk: where it starts, counted from one, and
how many lines it has, unless that is one. A range without lines starts at the line before it. -/
def rangeText (start stop : Nat) : String :=
  let count := stop - start
  if count = 1 then toString (start + 1)
  else if count = 0 then toString start ++ "," ++ toString count
  else toString (start + 1) ++ "," ++ toString count

/-- The ranges of a hunk from its first to its last block. -/
def headText (first last : Block) : String :=
  "@@ -" ++ rangeText first.old (last.old + last.oldLength) ++
    " +" ++ rangeText first.new (last.new + last.newLength) ++ " @@\n"

/-- A line of a hunk behind its mark; a line without a terminator is followed by a note. -/
def lineText (mark : Char) (line : Text) : Text :=
  let ends := match line.getLast? with
    | some last => Text.isBreak last
    | none => false
  mark :: line ++ if ends then [] else "\n\\ No newline at end of file\n".toList

/-- The lines of a block: kept ones behind a blank, old ones behind a minus, new ones behind a
plus. -/
def blockText (sides : Sides) (block : Block) : Text :=
  let old := linesAt sides.old block.old block.oldLength
  if block.same then old.flatMap (lineText ' ')
  else old.flatMap (lineText '-') ++
    (linesAt sides.new block.new block.newLength).flatMap (lineText '+')

/-- A hunk as text. -/
def hunkText (sides : Sides) (hunk : List Block) : Text :=
  match hunk.head?, hunk.getLast? with
  | some first, some last => (headText first last).toList ++ hunk.flatMap (blockText sides)
  | _, _ => []

/-- The tidy edit script between two texts. -/
def script (old new : Text) : List Edit :=
  let oldLines := Text.lines old
  let newLines := Text.lines new
  compact ⟨oldLines.toArray, newLines.toArray⟩ (scriptFrom 0 0 oldLines newLines)

/-- The patch that turns the old text of the file `name` into the new one; nothing if they are the
same. -/
def render (name : Text) (old new : Text) : Text :=
  let sides : Sides := ⟨(Text.lines old).toArray, (Text.lines new).toArray⟩
  match hunks (script old new) with
  | [] => []
  | found =>
    "--- a/".toList ++ name ++ "\n+++ b/".toList ++ name ++ ['\n'] ++
      found.flatMap (hunkText sides)

end LicenseHeader.Patch
