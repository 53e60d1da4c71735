import LicenseHeader.Text.Line

/-!
# Edits

An edit script says how the lines of one text become the lines of another: lines are kept, deleted
or inserted. Every edit carries a position in both texts. The position in the text that an edit
takes no lines from is only where the search for the script stood when it wrote the edit.
-/

namespace LicenseHeader

/-- What an edit does with its lines. -/
inductive EditKind where
  /-- The lines are in both texts. -/
  | keep
  /-- The lines are only in the old text. -/
  | delete
  /-- The lines are only in the new text. -/
  | insert
  deriving DecidableEq, Repr

/-- A run of lines with the same fate. -/
structure Edit where
  /-- What happens to the lines. -/
  kind : EditKind
  /-- The position in the old text. -/
  old : Nat
  /-- The position in the new text. -/
  new : Nat
  /-- How many lines there are. -/
  length : Nat
  deriving DecidableEq, Repr

namespace Edit

/-- The edit moved `count` lines towards the start. -/
def moveUp (edit : Edit) (count : Nat) : Edit :=
  { edit with old := edit.old - count, new := edit.new - count }

/-- The edit moved `count` lines towards the end. -/
def moveDown (edit : Edit) (count : Nat) : Edit :=
  { edit with old := edit.old + count, new := edit.new + count }

/-- The edit with `count` more lines at its end. -/
def extend (edit : Edit) (count : Nat) : Edit := { edit with length := edit.length + count }

/-- The edit without its last `count` lines. -/
def shorten (edit : Edit) (count : Nat) : Edit := { edit with length := edit.length - count }

/-- The edit with the `count` lines in front of it. -/
def extendUp (edit : Edit) (count : Nat) : Edit := (edit.moveUp count).extend count

/-- The edit without its first `count` lines. -/
def shortenUp (edit : Edit) (count : Nat) : Edit := (edit.moveDown count).shorten count

end Edit

/-- How many lines two lists have in common at their start. -/
def commonStart : List Text → List Text → Nat
  | a :: as, b :: bs => if a = b then commonStart as bs + 1 else 0
  | _, _ => 0

/-- How many lines two lists have in common at their end. -/
def commonEnd (a b : List Text) : Nat := commonStart a.reverse b.reverse

/-- What both lists have in common at their start is no longer than the first. -/
theorem commonStart_le_left (a b : List Text) : commonStart a b ≤ a.length := by
  fun_induction commonStart a b <;> simp_all

/-- What both lists have in common at their start is no longer than the second. -/
theorem commonStart_le_right (a b : List Text) : commonStart a b ≤ b.length := by
  fun_induction commonStart a b <;> simp_all

/-- What two lists have in common at their start is the same in both. -/
theorem take_commonStart (a b : List Text) :
    a.take (commonStart a b) = b.take (commonStart a b) := by
  fun_induction commonStart a b <;> simp_all

end LicenseHeader
