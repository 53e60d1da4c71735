import LicenseHeader.Patch.Edit

/-!
# The middle of a shortest edit script

A path through the grid of two lists of lines goes one step right for each line deleted, one step
down for each line inserted, and along a diagonal for free where the lines agree. Paths are followed
from both corners at once, one more step at a time, and only the furthest point on each diagonal is
kept. Where a path from the start meets one from the end lies the middle of a shortest script.
-/

namespace LicenseHeader.Patch

/-- A point of the grid: how many old and how many new lines lie before it. -/
structure Point where
  /-- The lines of the old list before the point. -/
  old : Nat
  /-- The lines of the new list before the point. -/
  new : Nat
  deriving DecidableEq, Repr

namespace Point

/-- The point after one more deleted line. -/
def right (p : Point) : Point := { p with old := p.old + 1 }

/-- The point after one more inserted line. -/
def down (p : Point) : Point := { p with new := p.new + 1 }

/-- The diagonal on which a point lies. -/
def diagonal (p : Point) : Int := (p.old : Int) - p.new

/-- The point reached from `p` along its diagonal, where lines agree, in at most `fuel` steps. -/
def slide (old new : Array Text) : Nat → Point → Point
  | 0, p => p
  | fuel + 1, p =>
    match old[p.old]?, new[p.new]? with
    | some a, some b => if a = b then slide old new fuel p.right.down else p
    | _, _ => p

end Point

/-- The points one step after neighbouring points of a frontier: `upper` is the point before. On the
diagonal between two points the one that is further in the old list goes on. -/
def stepsAfter (upper : Point) : List Point → List Point
  | [] => [upper.down]
  | lower :: more =>
    (if lower.old < upper.old then upper.down else lower.right) :: stepsAfter lower more

/-- The points one step after a frontier, which lists its points from the highest diagonal to the
lowest. -/
def steps : List Point → List Point
  | [] => [⟨0, 0⟩]
  | first :: more => first.right :: stepsAfter first more

/-- The point of a frontier of `count` steps that lies on a diagonal. -/
def pointOn? (frontier : Array Point) (count : Nat) (diagonal : Int) : Option Point :=
  if -(count : Int) ≤ diagonal && diagonal ≤ count then
    frontier[((count - diagonal) / 2).toNat]?
  else none

/-- Whether a point reached from one corner of a grid with `oldLength` columns and `newLength` rows
lies on or beyond the point that `frontier`, of `count` steps, has reached from the other corner on
the same diagonal. -/
def meets (oldLength newLength count : Nat) (frontier : Array Point) (p : Point) : Bool :=
  match pointOn? frontier count ((oldLength : Int) - newLength - p.diagonal) with
  | some q => oldLength ≤ p.old + q.old
  | none => false

/-- The search for the middle after `count` steps from each corner, where `fuel` bounds the further
ones: `forward` are the points that `count - 1` steps from the start reach, `backward` those from
the end, both counted from their own corner. -/
def middleFrom (old new : Array Text) : Nat → Nat → List Point → List Point → Option Point
  | 0, _, _, _ => none
  | fuel + 1, count, forward, backward =>
    let odd := (old.size + new.size) % 2 = 1
    let starts := steps forward
    let ends := starts.map (Point.slide old new old.size)
    let met :=
      if odd && count ≠ 0 then
        (starts.zip ends).find? fun pair =>
          meets old.size new.size (count - 1) backward.toArray pair.2
      else none
    match met with
    | some pair => some pair.1
    | none =>
      let back := (steps backward).map (Point.slide old.reverse new.reverse old.size)
      let met := if odd then none else back.find? (meets old.size new.size count ends.toArray)
      match met with
      | some p => some ⟨old.size - p.old, new.size - p.new⟩
      | none => middleFrom old new fuel (count + 1) ends back

/-- A point in the middle of a shortest edit script. -/
def middle? (old new : Array Text) : Option Point :=
  middleFrom old new ((old.size + new.size + 1) / 2 + 1) 0 [] []

end LicenseHeader.Patch
