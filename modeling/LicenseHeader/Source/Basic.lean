import LicenseHeader.Git.Listing
import LicenseHeader.Source.Walk

/-!
# Where the candidates come from

A source lists the paths that are candidates: those given, those of a walk, or those of a
repository. A workspace is the directory in which a run works, and the source that it uses when no
paths are given.
-/

namespace LicenseHeader

/-- Why candidates cannot be listed. -/
inductive EnumerationError where
  /-- The repository cannot list them. -/
  | repository (error : RepositoryError)
  /-- A walk cannot start. -/
  | walk (failure : Failure)
  deriving DecidableEq, Repr

/-- The error as a failure. -/
def EnumerationError.failure : EnumerationError → Failure
  | repository error => error.failure
  | walk failure => failure

/-- Where candidates come from. -/
inductive Source where
  /-- The repository at a path. -/
  | repository (root : Path)
  /-- A walk from a path. -/
  | walk (root : Path)
  /-- The given paths; a directory stands for a walk from it. -/
  | given (paths : List Path)
  deriving DecidableEq, Repr

namespace Source

/-- The source of given paths, which are taken relative to a directory. -/
def below (directory : Path) (paths : List Path) : Source := .given (paths.map directory.join)

/-- What a given path stands for. -/
def expand (files : FileSystem) (path : Path) : Except EnumerationError (List Path) :=
  if files.isDirectory path then (Walk.list files path).mapError .walk else .ok [path]

/-- What given paths stand for. -/
def expandAll (files : FileSystem) : List Path → Except EnumerationError (List Path)
  | [] => .ok []
  | path :: more => do return (← expand files path) ++ (← expandAll files more)

/-- The paths that a source lists. -/
def list (files : FileSystem) : Source → Except EnumerationError (List Path)
  | .repository root => (Repository.list files root).mapError .repository
  | .walk root => (Walk.list files root).mapError .walk
  | .given paths => expandAll files paths

end Source

/-- Where a run works. -/
structure Workspace where
  /-- The root of the workspace. -/
  root : Path
  /-- Whether the files come from a repository. -/
  isRepository : Bool
  deriving DecidableEq, Repr

namespace Workspace

/-- The source of a run to which no paths are given. -/
def source (workspace : Workspace) : Source :=
  if workspace.isRepository then .repository workspace.root else .walk workspace.root

/-- The path of the work tree of the repository that a path lies in, with a slash at its end. -/
def repositoryRoot (files : FileSystem) (start : Path) : Except EnumerationError Path :=
  ((Repository.discover files start).bind Repository.workTreePath).mapError .repository

/-- The workspace for a path: the work tree around it, or the directory as it is. -/
def resolve (files : FileSystem) (start : Path) (useRepository : Bool) :
    Except EnumerationError Workspace :=
  if useRepository then
    (repositoryRoot files start).map fun root => ⟨Path.ofComponents root.components, true⟩
  else .ok ⟨start, false⟩

end Workspace

end LicenseHeader
