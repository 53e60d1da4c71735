import LicenseHeader.Git.SettingsFile

/-!
# Repositories

A repository has data and settings and, unless it is bare, a work tree. The settings say whether it
can be read at all, whether it is bare, and where its work tree is; by default this is the directory
in which the data were found. The work tree of data that share others is named by a file in them.
-/

namespace LicenseHeader

/-- A repository. -/
structure Repository where
  /-- The location of its data. -/
  data : Location
  /-- The location of the data that it shares with other repositories. -/
  shared : Location
  /-- The path of its work tree with a slash at its end, if it has one. -/
  workTree : Option Path
  /-- Its settings. -/
  settings : List Setting
  deriving DecidableEq, Repr

namespace Repository

/-- The flag of a name among settings, if it is set at all. -/
def flagOf (settings : List Setting) (name : String) : Except RepositoryFault (Option Bool) :=
  match Setting.find? settings name with
  | none => .ok none
  | some setting =>
    match setting.flag? with
    | some flag => .ok (some flag)
    | none => .error (.notFlag setting.shown)

/-- The settings of the repository at a place: those of the person, those that it shares, then its
own if the shared ones say that it has some. -/
def settingsAt (files : FileSystem) (place : RepositoryPlace) :
    Except RepositoryFault (List Setting) := do
  let read (file : Path) := SettingsFile.read files place.data file
  let readIn (directory : Location) (name : String) :=
    read (FileSystem.pathOf (RepositoryPlace.inside directory [name]))
  let shared ← readIn place.shared "config"
  let hasOwn := (Setting.find? shared "extensions.worktreeconfig").map (·.flag?.getD false)
  let own ← if hasOwn = some true then readIn place.data "config.worktree" else pure []
  let personal ← files.personalSettings.mapM read
  return personal.flatten ++ shared ++ own

/-- The newest format of repositories that is known. -/
def newestVersion : Int := 1

/-- The extensions of repositories that are known. -/
def knownExtensions : List String := ["noop", "objectformat", "worktreeconfig", "preciousobjects"]

/-- Whether a setting asks for an extension that is unknown. -/
def asksForUnknown (setting : Setting) : Bool :=
  let front := Ascii.bytes "extensions."
  front.isPrefixOf setting.name &&
    !knownExtensions.any fun known => Ascii.bytes known = setting.name.drop front.length

/-- Refuses settings of a repository with a format or with extensions that are unknown. -/
def checkFormat (settings : List Setting) : Except RepositoryFault Unit := do
  let version ← match Setting.find? settings "core.repositoryformatversion" with
    | none => pure 0
    | some setting =>
      match setting.number? with
      | some number => pure number
      | none => throw (.notNumber setting.shown)
  if newestVersion < version then throw (.version version)
  if 1 ≤ version then
    match settings.find? asksForUnknown with
    | some setting => throw (.extension (String.ofList (Utf8.decodeLossy setting.name)))
    | none => pure ()
    match Setting.find? settings "extensions.objectformat" with
    | some setting =>
      if setting.value ≠ some (Ascii.bytes "sha1") then throw (.objectFormat setting.shown)
    | none => pure ()

/-- The names of a path without those that say nothing, where two dots take back the name before. -/
def plainNames (names : List Bytes) : Location :=
  (names.filter fun name => !Path.isIdle name).foldl (fun location name =>
    if name = Component.up.bytes then location.dropLast else location ++ [name]) []

/-- The path of the directory that a path lies in by its text, with a slash at its end. -/
def directoryOf (path : Bytes) : Path :=
  let trimmed := (path.reverse.dropWhile (· = Path.slash)).reverse
  let before := (trimmed.reverse.dropWhile (· ≠ Path.slash)).dropWhile (· = Path.slash)
  if path.isEmpty || (!trimmed.isEmpty && !trimmed.contains Path.slash) then Path.ofString "./"
  else ⟨before.reverse ++ [Path.slash]⟩

/-- The path of the work tree that a file in the data at a location names. -/
def namedWorkTree (files : FileSystem) (data : Location) : Except RepositoryFault Path :=
  let file := RepositoryPlace.inside data ["gitdir"]
  match RepositoryPlace.contentAt? files file with
  | none => .error (.unseen (FileSystem.pathOf file) .noEntry)
  | some content =>
    let path := RepositoryPlace.textOf content
    if RepositoryPlace.startsWithDots path then
      .ok (RepositoryPlace.directoryPath (plainNames (data ++ Path.pieces path)).dropLast)
    else .ok (directoryOf path)

/-- The path of the work tree of the repository at a place that is not bare. -/
def workTreeAt (files : FileSystem) (place : RepositoryPlace) (settings : List Setting)
    (isLinked : Bool) : Except RepositoryFault Path := do
  if isLinked then namedWorkTree files place.data
  else
    match (Setting.find? settings "core.worktree").bind (·.value) with
    | none => return RepositoryPlace.directoryPath place.around
    | some [] => throw .emptyWorkTree
    | some path =>
      let location ← RepositoryPlace.locate files ((FileSystem.pathOf place.data).join ⟨path⟩)
      return RepositoryPlace.directoryPath location

/-- The repository at a place. -/
def atPlace (files : FileSystem) (place : RepositoryPlace) :
    Except RepositoryFault Repository := do
  let settings ← settingsAt files place
  checkFormat settings
  let named := RepositoryPlace.contentAt? files (RepositoryPlace.inside place.data ["gitdir"])
  let isLinked := (place.linked || named.isSome) && place.shared ≠ place.data
  let bare := ((← flagOf settings "core.bare").getD false) && !isLinked
  let workTree ←
    if bare then pure none else some <$> workTreeAt files place settings isLinked
  return ⟨place.data, place.shared, workTree, settings⟩

/-- The repository at a path. -/
def openAt (files : FileSystem) (path : Path) : Except RepositoryError Repository :=
  (do atPlace files (← RepositoryPlace.find files false path)).mapError (.absent path)

/-- The repository that a path lies in. Its data are looked for once more at the path where they
were found, so that links in this path are followed. -/
def discover (files : FileSystem) (path : Path) : Except RepositoryError Repository :=
  (do
    let found ← RepositoryPlace.find files true path
    atPlace files (← RepositoryPlace.find files false
      (RepositoryPlace.directoryPath found.data))).mapError (.absent path)

/-- The path of the work tree, which the repository has to have. -/
def workTreePath (repository : Repository) : Except RepositoryError Path :=
  match repository.workTree with
  | some path => .ok path
  | none => .error (.bare (RepositoryPlace.directoryPath repository.data))

/-- Whether names are compared without regard to case. -/
def ignoresCase (repository : Repository) : Bool :=
  ((Setting.find? repository.settings "core.ignorecase").bind Setting.flag?).getD false

end Repository

end LicenseHeader
