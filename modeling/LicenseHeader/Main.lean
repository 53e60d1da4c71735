import LicenseHeader.Command.Run
import Std.Time

/-!
# The command line

A run works on a file tree that it is given. Here the part of the disk that a run may look at is
read into such a tree, and what the run changed is written back. Files whose content no run looks at
are read as empty ones, and the permission bits of files stay as they are on the disk.
-/

namespace LicenseHeader.Disk

/-- The name of a location on the disk. -/
def nameOf (location : Location) : String := (FileSystem.pathOf location).display

/-- The location that an absolute name writes. -/
def locationOf (name : String) : Location := (FileSystem.names (Path.ofString name)).filter (· ≠ [])

/-- The location that an absolute name leads to through links, or that it writes when nothing is
there. -/
def realLocation (name : String) : IO Location := do
  match ← (IO.FS.realPath name).toBaseIO with
  | .ok place => return locationOf place.toString
  | .error _ => return locationOf name

/-- The names, besides those of files with a style, of files whose content a run may look at
outside of the data of repositories. -/
def settingsNames : List String :=
  [".ignore", ".gitignore", ".git", "HEAD", "config", "config.worktree", "commondir", "gitdir",
    "packed-refs", "index", "exclude", Config.fileName]

/-- Whether a run may look at the content of a file with the given name. -/
def isRead (name : String) : Bool :=
  settingsNames.contains name || (Style.ofFileName? name.toList).isSome

/-- Whether the content of all files in a directory is read, given whether this is so around it: it
is in the data of a repository, apart from the objects. -/
def readsAll (around : Bool) (name : String) : Bool :=
  name = ".git" || (around && name ≠ "objects")

/-- What stands at a location of the disk and below it; the content of all files is read if
`whole`. -/
partial def entriesBelow (whole : Bool) (directory : Location) :
    IO (List (Location × Entry)) := do
  let mut found := [(directory, Entry.directory)]
  for item in ← (← IO.FS.realPath (nameOf directory)).readDir do
    let location := directory ++ [Ascii.bytes item.fileName]
    match (← item.path.symlinkMetadata).type with
    | .dir => found := (← entriesBelow (readsAll whole item.fileName) location) ++ found
    | .file =>
      let content ←
        if whole || isRead item.fileName then IO.FS.readBinFile item.path else pure .empty
      found := (location, .file content.toList Entry.fileMode) :: found
    | .symlink =>
      let target ← realLocation item.path.toString
      found := (location, .link (FileSystem.pathOf target)) :: found
    | .other => pure ()
  return found

/-- What stands at a location of the disk, and below it if that is a directory; nothing when nothing
is there. -/
def entriesAt (whole : Bool) (location : Location) : IO (List (Location × Entry)) := do
  match ← (IO.FS.realPath (nameOf location)).toBaseIO with
  | .error _ => return []
  | .ok place =>
    if ← place.isDir then
      let isData := location.getLast? = some RepositoryPlace.dataName
      entriesBelow (whole || isData) location
    else return [(location, .file (← IO.FS.readBinFile place).toList Entry.fileMode)]

/-- The names in a directory that a run looks at even when it works further down. -/
def landmarks : List String :=
  [".ignore", ".gitignore", ".git", "HEAD", "config", "commondir", "gitdir", "packed-refs", "info",
    "objects", "refs"]

/-- The directories from the root down to a location, each with the landmarks in it. -/
def entriesAbove (location : Location) : IO (List (Location × Entry)) := do
  let mut found := []
  for directory in RepositoryPlace.upwards location do
    if directory ≠ [] then found := (directory, .directory) :: found
    for name in landmarks do
      found := found ++ (← entriesAt (name = "refs") (RepositoryPlace.inside directory [name]))
  return found

/-- The files with more entries; what is known already stays. -/
def add (files : FileSystem) (entries : List (Location × Entry)) : FileSystem :=
  { files with
    tree := entries.foldl (fun tree pair =>
      if (tree.get? pair.1).isSome then tree else tree.set pair.1 pair.2) files.tree }

/-- The files with what a path leads to and with the directories above it; the content of all files
is read if `whole`. -/
def addPath (whole : Bool) (files : FileSystem) (path : Path) : IO FileSystem := do
  let name := ((FileSystem.pathOf files.workingDirectory).join path).display
  let location ← realLocation name
  return add (add files (← entriesAbove location.dropLast)) (← entriesAt whole location)

/-- The paths outside of the data of a repository that its settings name. -/
def namedBySettings (repository : Repository) : List Path :=
  let config := FileSystem.pathOf (RepositoryPlace.inside repository.shared ["config"])
  let around := (repository.workTree.map (·.join ·)).getD id
  repository.settings.filterMap fun setting =>
    if setting.name = Ascii.bytes "core.excludesfile" then setting.value.map (around ⟨·⟩)
    else if (Ascii.bytes ".path").isSuffixOf setting.name then
      setting.value.map fun path => config.parent.join ⟨path⟩
    else none

/-- The files with what the repository around a path leads to elsewhere; links are followed
`limit` times. -/
def addLinked (files : FileSystem) (start : Path) : Nat → IO FileSystem
  | 0 => return files
  | limit + 1 => do
    match Repository.discover files start with
    | .error (.absent _ (.unresolved path _)) => addLinked (← addPath true files path) start limit
    | .error _ => return files
    | .ok repository => (namedBySettings repository).foldlM (addPath true) files

/-- No files yet, with the directories that matter to a run. -/
def noFiles : IO FileSystem := do
  let here := locationOf (← IO.currentDir).toString
  let home := (← IO.getEnv "HOME").map Path.ofString
  let settingsHome := (← IO.getEnv "XDG_CONFIG_HOME").map Path.ofString
  return ⟨.empty, here, home, settingsHome⟩

/-- The files with the settings and the ignore rules of the person who works. -/
def addPersonal (files : FileSystem) : IO FileSystem := do
  let settings := files.personalSettings ++ files.personalRules?.toList
  let files ← settings.foldlM (addPath true) files
  (PersonalRules.path? files).toList.foldlM (addPath true) files

/-- The files that the run with the given arguments may look at; `named` are paths that the
environment names. -/
def load (arguments : Arguments) (named : List Path) : IO FileSystem := do
  let files ← addPersonal (← noFiles)
  let here := files.workingDirectory
  let directory := FileSystem.pathOf here
  let start := (arguments.root.map directory.join).getD directory
  let above ← entriesAbove here
  let beside ← entriesAbove (← realLocation start.display)
  let files ← addLinked (add (add files above) beside) start 10
  let candidates :=
    if arguments.paths.isEmpty then
      match Workspace.resolve files start (!arguments.noRepository) with
      | .ok workspace => [workspace.root]
      | .error _ => []
    else arguments.paths
  let others := arguments.config.toList ++ arguments.savePatch.toList ++ arguments.report.toList
  (candidates ++ others ++ named).foldlM (addPath false) files

/-- The changes from one file tree to another, made on the disk. -/
def save (before after : FileTree) : IO Unit := do
  for (location, entry) in after.entries do
    match entry with
    | .file content _ =>
      if before.get? location ≠ some entry then
        IO.FS.writeBinFile (nameOf location) content.toByteArray
    | _ => pure ()
  for (location, _) in before.entries do
    if (after.get? location).isNone then IO.FS.removeFile (nameOf location)

/-- The arguments with colours where the output is a terminal that may have them. -/
def withTerminal (arguments : Arguments) : IO Arguments := do
  let plain := (← IO.getEnv "NO_COLOR").isSome
  if arguments.colours = .auto && !plain && (← (← IO.getStdout).isTty) then
    return { arguments with colours := .always }
  else return arguments

/-- The run that the words of a command line ask for, done on the disk. -/
def run (words : List Bytes) : IO RunOutcome := do
  let started ← IO.monoNanosNow
  let now ← Std.Time.PlainDateTime.now
  let named ← IO.getEnv Config.environmentName
  let environment (elapsed : Nat) : IO Environment :=
    return {
      config := named
      log := ← IO.getEnv "RUST_LOG"
      colours := ⟨← IO.getEnv "NO_COLOR", ← IO.getEnv "FORCE_COLOR", ← IO.getEnv "CLICOLOR_FORCE"⟩
      now := now.format "uuuu-MM-dd HH:mm:ss"
      elapsed := ⟨elapsed⟩
      device := .reliable }
  match Arguments.parse words with
  | .error _ => return Run.ofWords (← environment 0) words (← noFiles)
  | .ok arguments =>
    let files ← load arguments (named.map Path.ofString).toList
    let environment ← environment ((← IO.monoNanosNow) - started)
    let done := Run.ofArguments environment (← withTerminal arguments) files
    save files.tree done.files.tree
    return done

end LicenseHeader.Disk

/-- Brings the headers of the files that the command line names into their canonical form. -/
def main (words : List String) : IO UInt32 := do
  let done ← LicenseHeader.Disk.run (words.map LicenseHeader.Ascii.bytes)
  IO.print (LicenseHeader.Console.text done.output)
  IO.eprint (LicenseHeader.Console.text done.errors)
  return done.status.toUInt32
