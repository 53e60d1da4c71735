import LicenseHeader.Git.Head
import LicenseHeader.Git.Ignored
import LicenseHeader.Repeats

/-!
# The files of a repository

A repository lists what its index tracks, whether it is still there or not, and the other files of
its work tree that are not ignored. An ignored directory is looked into only when something below it
is tracked. A directory with a repository of its own and no tracked path below it is listed as a
whole.
-/

namespace LicenseHeader.Repository

/-- Whether a name is the one for the data of a repository, in letters of either case: such a name
is never listed. -/
def isReserved (name : Bytes) : Bool := Ascii.lowered name = RepositoryPlace.dataName

/-- What is known about a work tree when its files are listed. -/
structure WorkTree where
  /-- All files. -/
  tree : FileTree
  /-- The location of its root. -/
  root : Location
  /-- What it ignores. -/
  rules : List WorkTreeRules
  /-- What the index tracks. -/
  tracked : List IndexEntry
  /-- Whether names are compared without regard to case. -/
  ignoresCase : Bool

namespace WorkTree

/-- A path as it is compared. -/
def fold (work : WorkTree) (path : Bytes) : Bytes :=
  if work.ignoresCase then Ascii.lowered path else path

/-- Whether something below a directory is tracked. -/
def tracksBelow (work : WorkTree) (names : List Bytes) : Bool :=
  let inside := work.fold (Path.joinPieces names ++ [Path.slash])
  work.tracked.any fun entry => inside.isPrefixOf (work.fold entry.path)

/-- Whether the path of a file is tracked, or a repository at this path. -/
def tracks (work : WorkTree) (names : List Bytes) (repositories : Bool) : Bool :=
  let path := work.fold (Path.joinPieces names)
  work.tracked.any fun entry =>
    work.fold entry.path = path && (!repositories || entry.isRepository)

/-- Whether a directory is looked into. -/
def isOpen (work : WorkTree) (names : List Bytes) : Bool :=
  work.tracksBelow names || !WorkTreeRules.ignores work.rules names true

/-- Whether a directory holds a repository of its own and nothing tracked. -/
def isForeign (work : WorkTree) (names : List Bytes) : Bool :=
  (work.tree.get? (work.root ++ names ++ [RepositoryPlace.dataName])).isSome &&
    !work.tracksBelow names

/-- The directories on the way from the root to a path, the root apart. -/
def directoriesTo (names : List Bytes) : List (List Bytes) :=
  (List.range (names.length - 1)).map fun count => names.take (count + 1)

/-- What stands for an untracked file in a listing: its path, or the path of the first directory on
the way that is listed as a whole; nothing when it is not listed. -/
def untracked? (work : WorkTree) (names : List Bytes) : Option Bytes :=
  let above := directoriesTo names
  if names.any isReserved || (names :: above).any (work.tracks · true) || work.tracks names false ||
      !above.all work.isOpen || WorkTreeRules.ignores work.rules names false then none
  else
    match above.find? work.isForeign with
    | some directory => some (Path.joinPieces directory ++ [Path.slash])
    | none => some (Path.joinPieces names)

/-- What stands for the untracked files in a listing. -/
def untracked (work : WorkTree) : List Bytes :=
  work.tree.entries.filterMap fun pair =>
    if pair.2.isDirectory || !work.root.isPrefixOf pair.1 || pair.1 = work.root then none
    else work.untracked? (pair.1.drop work.root.length)

end WorkTree

/-- The location of the file with the index. -/
def indexLocation (repository : Repository) : Location :=
  RepositoryPlace.inside repository.data ["index"]

/-- The entries of the index; without an index there are none. -/
def indexEntries (files : FileSystem) (repository : Repository) :
    Except ListingFault (List IndexEntry) :=
  let unread := ListingFault.unreadIndex (FileSystem.pathOf repository.indexLocation)
  match RepositoryPlace.entryAt files repository.indexLocation with
  | none => .ok []
  | some (.file content _) =>
    if content.length < Digest.size then .error unread
    else (Index.decode (.ofSettings repository.settings) content).mapError .index
  | some _ => .error unread

/-- The location of the work tree at a path. -/
def workTreeLocation (files : FileSystem) (workTree : Path) : Except ListingFault Location :=
  match files.lookAt workTree, files.resolve .followed workTree with
  | .ok .directory, .ok location => .ok location
  | .error fault, _ => .error (.workTree workTree fault)
  | _, _ => .error (.workTree workTree .notDirectory)

/-- What is known about the work tree of a repository at a path. -/
def readWorkTree (files : FileSystem) (repository : Repository) (path : Path) :
    Except ListingFault WorkTree := do
  let tracked ← repository.indexEntries files
  (repository.checkHead files).mapError .head
  let root ← workTreeLocation files path
  let rules ← repository.rules files path root
  return {
    tree := files.tree
    root := root
    rules := rules
    tracked := tracked
    ignoresCase := repository.ignoresCase }

/-- The files that the repository at a path lists, in the order of paths. -/
def list (files : FileSystem) (path : Path) : Except RepositoryError (List Path) := do
  let repository ← openAt files path
  let workTree ← repository.workTreePath
  let work ← (repository.readWorkTree files workTree).mapError .unlisted
  let indexed := (work.tracked.filter (!·.isRepository)).map (·.path)
  let readable := (indexed ++ work.untracked).filter fun name => (Utf8.decode name).isOk
  return dropRepeats Path.same
    ((readable.map fun name => workTree.join ⟨name⟩).mergeSort Path.le)

end LicenseHeader.Repository
