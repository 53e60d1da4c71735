import LicenseHeader.Git.Head

/-!
# Opening a repository

Settings that include no others are read as they are written (`SettingsFile.read_of_plain`), and
those of a repository are in one file when nobody has any of their own and the file says of no more
(`Repository.settingsAt_of_plain`). The head may lead to a reference that is not there yet
(`Repository.checkHead_of_unborn`).
-/

namespace LicenseHeader

namespace SettingsFile

variable {files : FileSystem} {data : Location} {file : Path} {content : Bytes}
  {settings : List Setting}

/-- Settings that include nothing are read as they are. -/
theorem chain_of_plain {within : Setting → Reading} (last : Option RepositoryFault)
    (plain : ∀ setting ∈ settings, within setting = ([], none)) :
    chain within last settings = (settings, last) := by
  induction settings with
  | nil => rfl
  | cons setting more ih =>
    obtain ⟨first, others⟩ := List.forall_mem_cons.mp plain
    rw [chain, first, ih others]
    rfl

/-- The settings in a file that includes no others are those that are written in it. -/
theorem read_of_plain (there : files.has file = true) (written : files.read file = .ok content)
    (settled : SettingsReader.read file content = (settings, none))
    (plain : ∀ setting ∈ settings, included? files data file setting = none) :
    SettingsFile.read files data file = .ok settings := by
  have whole : readWithin files data depthLimit file = (settings, none) := by
    unfold depthLimit readWithin
    rw [written]
    dsimp only
    rw [settled]
    refine chain_of_plain _ fun setting member => ?_
    rw [plain setting member]
  unfold SettingsFile.read
  rw [there, whole]
  rfl

end SettingsFile

namespace Repository

variable {files : FileSystem} {place : RepositoryPlace} {settings : List Setting}
  {repository : Repository} {file : Path} {content name : Bytes}

/-- Without a person, a repository has the settings in a file that includes no others and does not
say that there are more. -/
theorem settingsAt_of_plain (alone : files.personalSettings = [])
    (named : FileSystem.pathOf (RepositoryPlace.inside place.shared ["config"]) = file)
    (there : files.has file = true) (written : files.read file = .ok content)
    (settled : SettingsReader.read file content = (settings, none))
    (plain : ∀ setting ∈ settings,
      SettingsFile.included? files place.data file setting = none)
    (all : Setting.find? settings "extensions.worktreeconfig" = none) :
    settingsAt files place = .ok settings := by
  have shared := SettingsFile.read_of_plain there written settled plain
  unfold settingsAt
  simp only [alone, named, shared, all, bind, Except.bind, pure, Except.pure, List.mapM_nil,
    Option.map_none, reduceCtorEq, ↓reduceIte, List.flatten_nil, List.nil_append, List.append_nil]

/-- A head may lead to a reference that is not there yet. -/
theorem checkHead_of_unborn
    (head : (FileSystem.pathOf (repository.referenceDirectory headName)).join ⟨headName⟩ = file)
    (written : files.read file = .ok content)
    (leads : Reference.ofContent headName content = .ok (.symbolic name))
    (named : Reference.isName name = true) (short : name.length ≤ Reference.nameLimit)
    (unborn : repository.lookUp files name = .ok none) : repository.checkHead files = .ok () := by
  have found : repository.lookUp files headName = .ok (some (.symbolic name)) := by
    unfold lookUp
    dsimp only
    rw [head, written]
    dsimp only
    rw [leads]
    rfl
  unfold checkHead
  simp only [found, bind, Except.bind, named, Bool.not_true]
  rw [if_neg Bool.false_ne_true, if_neg (Nat.not_lt.mpr short)]
  unfold lookUpLimit followReferences
  simp only [unborn, bind, Except.bind]
  rfl

end Repository

end LicenseHeader
