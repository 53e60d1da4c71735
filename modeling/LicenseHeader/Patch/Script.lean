import LicenseHeader.Patch.Middle

/-!
# Edit scripts

`Patch.scriptFrom` divides the problem: it keeps what both lists of lines share at their start and
at their end, and cuts the rest at the middle of a shortest script.
-/

namespace LicenseHeader.Patch

/-- Two lists of lines, divided into what they share at both ends and what lies between. -/
structure Trimmed where
  /-- How many lines both share at their start. -/
  leading : Nat
  /-- The old lines between. -/
  old : List Text
  /-- The new lines between. -/
  new : List Text
  /-- How many lines both share at their end. -/
  trailing : Nat
  deriving Repr

/-- The division of two lists of lines; the shared start is taken off first. -/
def trim (old new : List Text) : Trimmed :=
  let leading := commonStart old new
  let oldRest := old.drop leading
  let newRest := new.drop leading
  let trailing := commonEnd oldRest newRest
  ⟨leading, oldRest.take (oldRest.length - trailing), newRest.take (newRest.length - trailing),
    trailing⟩

/-- What lies between is no longer than the lists. -/
theorem trim_length (old new : List Text) :
    (trim old new).old.length + (trim old new).new.length ≤ old.length + new.length := by
  simp only [trim, List.length_take, List.length_drop]
  omega

/-- The middle of a shortest script between two lists of lines, if it divides them into smaller
problems. -/
def cut? (old new : List Text) : Option Point :=
  if old.isEmpty || new.isEmpty then none
  else (middle? old.toArray new.toArray).filter fun p =>
    (old.take p.old).length + (new.take p.new).length < old.length + new.length ∧
      (old.drop p.old).length + (new.drop p.new).length < old.length + new.length

/-- Both problems after a cut are smaller. -/
theorem lengths_of_cut? {old new : List Text} {p : Point} (found : cut? old new = some p) :
    (old.take p.old).length + (new.take p.new).length < old.length + new.length ∧
      (old.drop p.old).length + (new.drop p.new).length < old.length + new.length := by
  unfold cut? at found
  split at found
  · contradiction
  · simpa using (Option.filter_eq_some_iff.mp found).2

/-- The edit, unless it has no lines. -/
def unlessEmpty (edit : Edit) : List Edit := if edit.length = 0 then [] else [edit]

/-- An edit script from the lines `old`, which start at line `oldStart` of their text, to the lines
`new`, which start at line `newStart`. -/
def scriptFrom (oldStart newStart : Nat) (old new : List Text) : List Edit :=
  let parts := trim old new
  let oldAt := oldStart + parts.leading
  let newAt := newStart + parts.leading
  let between :=
    match _found : cut? parts.old parts.new with
    | some p =>
      scriptFrom oldAt newAt (parts.old.take p.old) (parts.new.take p.new) ++
        scriptFrom (oldAt + p.old) (newAt + p.new) (parts.old.drop p.old) (parts.new.drop p.new)
    | none =>
      unlessEmpty ⟨.delete, oldAt, newAt, parts.old.length⟩ ++
        unlessEmpty ⟨.insert, oldAt, newAt, parts.new.length⟩
  unlessEmpty ⟨.keep, oldStart, newStart, parts.leading⟩ ++ between ++
    unlessEmpty ⟨.keep, oldAt + parts.old.length, newAt + parts.new.length, parts.trailing⟩
  termination_by old.length + new.length
  decreasing_by
    · exact Nat.lt_of_lt_of_le (lengths_of_cut? _found).1 (trim_length old new)
    · exact Nat.lt_of_lt_of_le (lengths_of_cut? _found).2 (trim_length old new)

end LicenseHeader.Patch
