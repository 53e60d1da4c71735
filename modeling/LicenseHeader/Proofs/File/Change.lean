import LicenseHeader.Proofs.File.Resolve

/-!
# Changes of single entries

`FileSystem.Agrees` says that two states of the files have the same entries, and
`FileSystem.ChangedAt` that they do but for one location. A file that changes, comes or goes leaves
the location of every path as it is.
-/

namespace LicenseHeader

/-- A location at which there is no directory is not the root. -/
theorem FileTree.ne_root {tree : FileTree} {place : Location}
    (other : tree.get? place ≠ some .directory) : place ≠ [] := by
  intro root
  rw [root] at other
  exact other rfl

/-- A leaf is not the root. -/
theorem FileTree.IsLeaf.ne_root {tree : FileTree} {place : Location} (leaf : tree.IsLeaf place) :
    place ≠ [] := by
  apply FileTree.ne_root
  intro there
  have file := leaf .directory there
  contradiction

namespace FileSystem

/-- Whether two states of the files have the same entries. -/
structure Agrees (before after : FileSystem) : Prop where
  /-- Nothing but the tree is another. -/
  rest : after = { before with tree := after.tree }
  /-- Every location has the entry that it had. -/
  entries : ∀ place, after.tree.get? place = before.tree.get? place

/-- Whether an entry has come to a location, and all others are as before. -/
structure ChangedAt (before after : FileSystem) (place : Location) (entry : Entry) : Prop where
  /-- Nothing but the tree is another. -/
  rest : after = { before with tree := after.tree }
  /-- The location has the entry, and every other one what it had. -/
  entries : ∀ other, after.tree.get? other =
    if other = place then some entry else before.tree.get? other

/-- Files agree with themselves. -/
theorem Agrees.refl (files : FileSystem) : files.Agrees files := ⟨rfl, fun _ => rfl⟩

/-- An entry put at a location is the only change. -/
theorem changedAt_put (files : FileSystem) {place : Location} (entry : Entry)
    (below : place ≠ []) : files.ChangedAt (files.put place entry) place entry :=
  ⟨rfl, fun other => FileTree.get?_set files.tree entry other below⟩

/-- The entry at a changed location. -/
theorem ChangedAt.there {before after : FileSystem} {place : Location} {entry : Entry}
    (changed : before.ChangedAt after place entry) : after.tree.get? place = some entry := by
  rw [changed.entries, if_pos rfl]

/-- A location whose entry changes twice has changed once. -/
theorem ChangedAt.trans {before middle after : FileSystem} {place : Location} {entry next : Entry}
    (changed : before.ChangedAt middle place entry) (again : middle.ChangedAt after place next) :
    before.ChangedAt after place next := by
  constructor
  · rw [again.rest, changed.rest]
  · intro other
    rw [again.entries]
    by_cases same : other = place
    · rw [if_pos same, if_pos same]
    · rw [if_neg same, if_neg same, changed.entries, if_neg same]

/-- A changed location may be given another entry. -/
theorem ChangedAt.put {before middle : FileSystem} {place : Location} {entry : Entry}
    (changed : before.ChangedAt middle place entry) (next : Entry) (below : place ≠ []) :
    before.ChangedAt (middle.put place next) place next :=
  changed.trans (changedAt_put middle next below)

/-- Whether two locations hold what is given, and all others what they held. -/
structure Touched (before after : FileSystem) (goal place : Location)
    (first second : Option Entry) : Prop where
  /-- Nothing but the tree is another. -/
  rest : after = { before with tree := after.tree }
  /-- The two locations hold what is given, and every other one what it held. -/
  entries : ∀ other, after.tree.get? other =
    if other = goal then first else if other = place then second else before.tree.get? other

/-- An entry that came is one of two locations that were touched. -/
theorem ChangedAt.touched {before after : FileSystem} {goal place : Location} {entry : Entry}
    (changed : before.ChangedAt after place entry) (apart : goal ≠ place) :
    before.Touched after goal place (before.tree.get? goal) (some entry) := by
  refine ⟨changed.rest, fun other => ?_⟩
  rw [changed.entries]
  by_cases same : other = goal
  · rw [if_pos same, if_neg (same ▸ apart), same]
  · rw [if_neg same]

/-- Two locations that hold what they held are touched. -/
theorem touched_refl (files : FileSystem) (goal place : Location) :
    files.Touched files goal place (files.tree.get? goal) (files.tree.get? place) := by
  refine ⟨rfl, fun other => ?_⟩
  by_cases same : other = goal
  · rw [if_pos same, same]
  · by_cases there : other = place
    · rw [if_neg same, if_pos there, there]
    · rw [if_neg same, if_neg there]

/-- A location from which an entry is removed is empty. -/
theorem Touched.removed {before middle : FileSystem} {goal place : Location}
    {first second : Option Entry} (touched : before.Touched middle goal place first second)
    (below : place ≠ []) (apart : goal ≠ place) :
    before.Touched { middle with tree := middle.tree.erase place } goal place first none := by
  refine ⟨by rw [touched.rest], fun other => ?_⟩
  rw [FileTree.get?_erase middle.tree other below, touched.entries]
  by_cases same : other = goal
  · rw [if_pos same, if_neg (same ▸ apart), if_pos same]
  · by_cases there : other = place
    · rw [if_pos there, if_neg same, if_pos there]
    · rw [if_neg there, if_neg same, if_neg there, if_neg same, if_neg there]

/-- An entry that came and is moved on leaves its location empty. -/
theorem ChangedAt.moved {before middle : FileSystem} {goal place : Location} {entry : Entry}
    (changed : before.ChangedAt middle place entry) (below : place ≠ []) (aim : goal ≠ []) :
    before.Touched { middle with tree := (middle.tree.erase place).set goal entry } goal place
      (some entry) none := by
  refine ⟨by rw [changed.rest], fun other => ?_⟩
  rw [FileTree.get?_set _ entry other aim, FileTree.get?_erase middle.tree other below,
    changed.entries]
  by_cases there : other = place
  · rw [if_pos there, if_pos there]
  · rw [if_neg there, if_neg there, if_neg there]

/-- Files agree when one location holds what it held and the other nothing as before. -/
theorem Touched.agrees {before after : FileSystem} {goal place : Location}
    (touched : before.Touched after goal place (before.tree.get? goal) none)
    (absent : before.tree.get? place = none) : before.Agrees after := by
  refine ⟨touched.rest, fun other => ?_⟩
  rw [touched.entries]
  by_cases same : other = goal
  · rw [if_pos same, same]
  · by_cases there : other = place
    · rw [if_neg same, if_pos there, there, absent]
    · rw [if_neg same, if_neg there]

/-- An entry that has come is the only change when the other location is empty as before. -/
theorem Touched.changedAt {before after : FileSystem} {goal place : Location} {entry : Entry}
    (touched : before.Touched after goal place (some entry) none)
    (absent : before.tree.get? place = none) : before.ChangedAt after goal entry := by
  refine ⟨touched.rest, fun other => ?_⟩
  rw [touched.entries]
  by_cases same : other = goal
  · rw [if_pos same, if_pos same]
  · by_cases there : other = place
    · rw [if_neg same, if_neg same, if_pos there, there, absent]
    · rw [if_neg same, if_neg same, if_neg there]

/-- A file that comes or changes is the only difference. -/
theorem ChangedAt.alike {before after : FileSystem} {place : Location} {content : Bytes}
    {mode : Nat} (changed : before.ChangedAt after place (.file content mode))
    (leaf : before.tree.IsLeaf place) : before.tree.Alike after.tree := by
  intro other
  by_cases same : other = place
  · refine .inr ⟨same ▸ leaf, ?_⟩
    intro entry there
    rw [same, changed.there] at there
    obtain rfl : Entry.file content mode = entry := Option.some.inj there
    rfl
  · exact .inl (by rw [changed.entries, if_neg same])

/-- The working directory stays where it is. -/
theorem ChangedAt.workingDirectory {before after : FileSystem} {place : Location} {entry : Entry}
    (changed : before.ChangedAt after place entry) :
    after.workingDirectory = before.workingDirectory := by
  rw [changed.rest]

/-- Whether two states of the files differ in nothing but files. -/
structure Resembles (before after : FileSystem) : Prop where
  /-- Nothing but the tree is another. -/
  rest : after = { before with tree := after.tree }
  /-- The trees differ in nothing but files. -/
  alike : before.tree.Alike after.tree

namespace Resembles

variable {before middle after : FileSystem}

/-- Files resemble themselves. -/
theorem refl (files : FileSystem) : files.Resembles files := ⟨rfl, fun _ => .inl rfl⟩

/-- Files resemble each other. -/
theorem symm (same : before.Resembles after) : after.Resembles before :=
  ⟨by rw [same.rest], same.alike.symm⟩

/-- Files resemble those that resemble others which they resemble. -/
theorem trans (first : before.Resembles middle) (second : middle.Resembles after) :
    before.Resembles after :=
  ⟨by rw [second.rest, first.rest], first.alike.trans second.alike⟩

/-- A path names the same location. -/
theorem resolve_iff (same : before.Resembles after) {last : LastName} {path : Path}
    {goal : Location} : after.resolve last path = .ok goal ↔ before.resolve last path = .ok goal :=
  ⟨resolve_of_alike same.alike.symm (by rw [same.rest]),
    resolve_of_alike same.alike (by rw [same.rest])⟩

/-- A path names a location or does not. -/
theorem isOk_resolve (same : before.Resembles after) (last : LastName) (path : Path) :
    (after.resolve last path).isOk = (before.resolve last path).isOk := by
  cases here : after.resolve last path with
  | ok goal => rw [same.resolve_iff.mp here]
  | error fault =>
    cases there : before.resolve last path with
    | error fault => rfl
    | ok goal =>
      rw [same.resolve_iff.mpr there] at here
      contradiction

end Resembles

/-- Files resemble those before when two locations, where nothing but files was, hold files or
nothing. -/
theorem Touched.resembles {before after : FileSystem} {goal place : Location}
    {first second : Option Entry} (touched : before.Touched after goal place first second)
    (aim : before.tree.IsLeaf goal) (leaf : before.tree.IsLeaf place)
    (file : ∀ entry ∈ first, entry.isFile = true)
    (other : ∀ entry ∈ second, entry.isFile = true) : before.Resembles after := by
  refine ⟨touched.rest, fun here => ?_⟩
  have entries := touched.entries here
  by_cases same : here = goal
  · rw [if_pos same] at entries
    exact .inr ⟨same ▸ aim, fun entry there => file entry (entries ▸ there)⟩
  · by_cases there : here = place
    · rw [if_neg same, if_pos there] at entries
      exact .inr ⟨there ▸ leaf, fun entry there => other entry (entries ▸ there)⟩
    · rw [if_neg same, if_neg there] at entries
      exact .inl entries

end FileSystem

end LicenseHeader
