import LicenseHeader.Failure
import LicenseHeader.Git.Place
import LicenseHeader.Ignore.Level

/-!
# Walking a directory

All regular files below a directory are listed that no ignore file says to leave out and that are
not in the data of a repository.
-/

namespace LicenseHeader

namespace Walk

/-- The locations from below a directory down to a location below it. -/
def waypoints (directory location : Location) : List Location :=
  (List.range (location.length - directory.length)).map fun count =>
    location.take (directory.length + count + 1)

/-- Whether a location is a directory. -/
def isDirectoryAt (tree : FileTree) (location : Location) : Bool :=
  tree.get? location = some .directory

/-- Whether a walk from a directory comes to a location: nothing on the way is ignored or the data
of a repository. -/
def reaches (files : FileSystem) (rules : IgnoreFiles) (directory location : Location) : Bool :=
  directory.isPrefixOf location &&
    (waypoints directory location).all fun waypoint =>
      waypoint.getLast? ≠ some RepositoryPlace.dataName &&
        !rules.ignores files waypoint (isDirectoryAt files.tree waypoint)

/-- The locations of the regular files that a walk from a directory comes to. -/
def found (files : FileSystem) (directory : Location) : List Location :=
  let rules := IgnoreFiles.of files
  files.tree.entries.filterMap fun pair =>
    if pair.2.isFile && reaches files rules directory pair.1 then some pair.1 else none

/-- The failure to look at the path where a walk starts. -/
def failure (start : Path) (fault : IoFault) : Failure :=
  let cause := start.display ++ ": IO error for operation on " ++ start.display ++ ": " ++
    fault.message
  ⟨"Failed to walk directory: " ++ cause, [cause]⟩

/-- The path that stands for a walk of nothing. -/
def nowhere : Path := Path.ofString "-"

/-- The regular files that a walk from a path lists. A file lists itself, also through a link. -/
def list (files : FileSystem) (start : Path) : Except Failure (List Path) :=
  if start.same nowhere then .ok []
  else
    match files.lookAt start, files.resolve .followed start with
    | .error fault, _ => .error (failure start fault)
    | .ok .directory, .ok directory =>
      let relative := (found files directory).map fun location =>
        start.join ⟨Path.joinPieces (location.drop directory.length)⟩
      .ok (relative.mergeSort Path.le)
    | .ok _, _ => .ok [start]

end Walk

end LicenseHeader
