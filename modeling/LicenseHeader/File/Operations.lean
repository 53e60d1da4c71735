import LicenseHeader.File.Resolve

/-!
# Operations on files

Looking at entries, reading, writing, and moving them. An operation that fails returns its fault and
no file system, since it changed nothing.
-/

namespace LicenseHeader.FileSystem

/-- The entry that a path names; a symbolic link at its end is followed. -/
def lookAt (files : FileSystem) (path : Path) : Except IoFault Entry := do
  match files.tree.get? (← files.resolve .followed path) with
  | some entry => return entry
  | none => throw .noEntry

/-- The entry that a path names; a symbolic link at its end is what is looked at. -/
def lookAtLink (files : FileSystem) (path : Path) : Except IoFault Entry := do
  match files.tree.get? (← files.resolve .kept path) with
  | some entry => return entry
  | none => throw .noEntry

/-- Whether a path leads to something. -/
def has (files : FileSystem) (path : Path) : Bool := (files.lookAt path).isOk

/-- Whether a path leads to a directory. -/
def isDirectory (files : FileSystem) (path : Path) : Bool :=
  match files.lookAt path with
  | .ok entry => entry.isDirectory
  | .error _ => false

/-- The content of a file. -/
def read (files : FileSystem) (path : Path) : Except IoFault Bytes := do
  match ← files.lookAt path with
  | .file content _ => return content
  | _ => throw .isDirectory

/-- The files with an entry at a location. -/
def put (files : FileSystem) (location : Location) (entry : Entry) : FileSystem :=
  { files with tree := files.tree.set location entry }

/-- The content of a file made from its content before; a missing file is made and was empty. -/
def alter (files : FileSystem) (path : Path) (change : Bytes → Bytes) :
    Except IoFault FileSystem := do
  let location ← files.resolve .created path
  match files.tree.get? location with
  | none => return files.put location (.file (change []) Entry.fileMode)
  | some (.file content mode) => return files.put location (.file (change content) mode)
  | some _ => throw .isDirectory

/-- The content of a file replaced in place. -/
def write (files : FileSystem) (path : Path) (content : Bytes) : Except IoFault FileSystem :=
  files.alter path fun _ => content

/-- More content at the end of a file. -/
def append (files : FileSystem) (path : Path) (content : Bytes) : Except IoFault FileSystem :=
  files.alter path (· ++ content)

/-- The permission bits of a file set. -/
def setMode (files : FileSystem) (path : Path) (mode : Nat) : Except IoFault FileSystem := do
  let location ← files.resolve .followed path
  match files.tree.get? location with
  | some (.file content _) => return files.put location (.file content mode)
  | some _ => return files
  | none => throw .noEntry

/-- Whether the last name of a path is a dot, two dots or the root, so that it names no entry of a
directory. -/
def namesNoEntry (path : Path) : Bool :=
  match ((names path).filter (· ≠ [])).getLast? with
  | some name => Path.isIdle name || name = Component.up.bytes
  | none => true

/-- Whether a path ends with a slash. -/
def endsWithSlash (path : Path) : Bool := path.bytes.getLast? = some Path.slash

/-- A file or a link moved over another. A directory neither moves nor is replaced. -/
def rename (files : FileSystem) (source target : Path) : Except IoFault FileSystem := do
  let origin ← files.resolve .kept source
  let goal ← files.resolve .kept target
  if namesNoEntry source || namesNoEntry target then throw .busy
  match files.tree.get? origin with
  | none => throw .noEntry
  | some .directory => throw .isDirectory
  | some entry =>
    if endsWithSlash target then throw .notDirectory
    if files.tree.get? goal = some .directory then throw .isDirectory
    return { files with tree := (files.tree.erase origin).set goal entry }

/-- A file or a link removed. -/
def remove (files : FileSystem) (path : Path) : Except IoFault FileSystem := do
  let location ← files.resolve .kept path
  match files.tree.get? location with
  | none => throw .noEntry
  | some .directory => throw .isDirectory
  | some _ => return { files with tree := files.tree.erase location }

end LicenseHeader.FileSystem
