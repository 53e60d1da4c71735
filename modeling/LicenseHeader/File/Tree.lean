import LicenseHeader.Path.Basic
import LicenseHeader.File.Fault

/-!
# File trees

A file tree maps locations to entries. A location is the list of names that lead to an entry from
the root, which is always a directory. `FileTree.get?_set` and `FileTree.get?_erase` say that a
change at one location leaves every other one as it is.
-/

namespace LicenseHeader

/-- The names that lead from the root to an entry. -/
abbrev Location := List Bytes

/-- What stands at a location. -/
inductive Entry where
  /-- A file with its content and permission bits. -/
  | file (content : Bytes) (mode : Nat)
  /-- A directory. -/
  | directory
  /-- A symbolic link to a path. -/
  | link (target : Path)
  deriving DecidableEq, Repr

namespace Entry

/-- Whether an entry is a regular file. -/
def isFile : Entry → Bool
  | file _ _ => true
  | _ => false

/-- Whether an entry is a directory. -/
def isDirectory : Entry → Bool
  | directory => true
  | _ => false

/-- The permission bits of a new file. -/
def fileMode : Nat := 0o644

/-- The permission bits of directories. -/
def directoryMode : Nat := 0o755

/-- The permission bits of an entry; those of a link say nothing. -/
def mode : Entry → Nat
  | file _ mode => mode
  | directory => directoryMode
  | link _ => 0o777

end Entry

/-- Entries by their locations. -/
structure FileTree where
  /-- The entries below the root; of two at one location the first counts. -/
  entries : List (Location × Entry)
  deriving DecidableEq, Repr

namespace FileTree

/-- The tree with nothing below its root. -/
def empty : FileTree := ⟨[]⟩

/-- The entry at a location. -/
def get? (tree : FileTree) (location : Location) : Option Entry :=
  if location = [] then some .directory
  else (tree.entries.find? (·.1 = location)).map (·.2)

/-- The tree without the entry at a location. -/
def erase (tree : FileTree) (location : Location) : FileTree :=
  ⟨tree.entries.filter (·.1 ≠ location)⟩

/-- The tree with an entry at a location. -/
def set (tree : FileTree) (location : Location) (entry : Entry) : FileTree :=
  ⟨(location, entry) :: (tree.erase location).entries⟩

/-- After an entry has been removed its location is empty, and all others are as before. -/
theorem get?_erase (tree : FileTree) {location : Location} (other : Location)
    (below : location ≠ []) :
    (tree.erase location).get? other = if other = location then none else tree.get? other := by
  unfold get? erase
  by_cases root : other = []
  · simp [root, Ne.symm below]
  · by_cases same : other = location
    · subst same
      simp [root]
    · simp only [root, same, ↓reduceIte, List.find?_filter]
      congr 2
      funext pair
      by_cases here : pair.1 = other <;> simp [here, same]

/-- After an entry has been put at a location it is there, and all others are as before. -/
theorem get?_set (tree : FileTree) {location : Location} (entry : Entry) (other : Location)
    (below : location ≠ []) :
    (tree.set location entry).get? other =
      if other = location then some entry else tree.get? other := by
  have removed := get?_erase tree other below
  unfold set
  by_cases same : other = location
  · subst same
    simp [get?, below]
  · by_cases root : other = []
    · simp [get?, root, Ne.symm below]
    · simp only [same, ↓reduceIte] at removed ⊢
      rw [← removed]
      simp [get?, root, Ne.symm same]

/-- The directories in which something has one of the given names, deeper ones first. -/
def directoriesWith (tree : FileTree) (names : List Bytes) : List Location :=
  let found := (tree.entries.filterMap fun pair =>
    match pair.1.getLast? with
    | some name => if names.contains name then some pair.1.dropLast else none
    | none => none).eraseDups
  found.mergeSort fun a b => b.length ≤ a.length

end FileTree

end LicenseHeader
