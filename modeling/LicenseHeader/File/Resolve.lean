import LicenseHeader.File.Tree

/-!
# The location that a path names

A path is followed from the root or from the working directory, name by name. Every name but the
last has to lead to a directory, and symbolic links are replaced by their targets on the way.
-/

namespace LicenseHeader

/-- A file tree and the directories in it that matter to a run. -/
structure FileSystem where
  /-- The entries. -/
  tree : FileTree
  /-- The location of the working directory. -/
  workingDirectory : Location
  /-- The path of the home directory, if one is known; it may be empty. -/
  home : Option Path := none
  /-- The path of the directory with the settings of programs, if it is not the one in the home
  directory. -/
  settingsHome : Option Path := none
  deriving DecidableEq, Repr

/-- What the last name of a path may be. -/
inductive LastName where
  /-- Anything; a link is followed. -/
  | followed
  /-- Anything; a link is not followed. -/
  | kept
  /-- A file that is opened for writing and made when it is missing: a link is followed, and a name
  that can only be that of a directory is refused. -/
  | created
  deriving DecidableEq, Repr

namespace FileSystem

/-- How many symbolic links are followed at most. -/
def linkLimit : Nat := 40

/-- How long a name may be. -/
def nameLimit : Nat := 255

/-- How long a path may be. -/
def pathLimit : Nat := 4095

/-- The names of a path in order; an empty one at the end stands for a slash at the end. -/
def names (path : Path) : List Bytes :=
  let pieces := Path.pieces path.bytes
  pieces.dropLast.filter (· ≠ []) ++ pieces.getLast?.toList

/-- Whether the names from `name` on can only end in a directory: a dot, two dots or a slash comes
last. -/
def endsInDirectory (name : Bytes) (rest : List Bytes) : Bool :=
  rest = [[]] || (rest = [] && (Path.isIdle name || name = Component.up.bytes))

/-- The location that names lead to from a directory, where `links` more symbolic links may be
followed. What the last name leads to need not exist. -/
def follow (tree : FileTree) (last : LastName) (links : Nat) (directory : Location) :
    List Bytes → Except IoFault Location
  | [] => .ok directory
  | name :: rest =>
    match tree.get? directory with
    | none => .error .noEntry
    | some .directory =>
      if last = .created && endsInDirectory name rest then .error .isDirectory
      else if Path.isIdle name then follow tree last links directory rest
      else if name = Component.up.bytes then follow tree last links directory.dropLast rest
      else if nameLimit < name.length then .error .nameTooLong
      else
        match tree.get? (directory ++ [name]) with
        | some (.link target) =>
          if rest.isEmpty && last = .kept then .ok (directory ++ [name])
          else
            match links with
            | 0 => .error .manyLinks
            | links + 1 =>
              follow tree last links (if target.isAbsolute then [] else directory)
                (names target ++ rest)
        | _ => follow tree last links (directory ++ [name]) rest
    | some _ => .error .notDirectory
  termination_by names => (links, names.length)

/-- The location that a path names. -/
def resolve (files : FileSystem) (last : LastName) (path : Path) : Except IoFault Location :=
  if path.bytes.contains 0 then .error .zeroByte
  else if path.bytes = [] then .error .noEntry
  else if pathLimit < path.bytes.length then .error .nameTooLong
  else
    follow files.tree last linkLimit (if path.isAbsolute then [] else files.workingDirectory)
      (names path)

/-- The absolute path that writes a location. -/
def pathOf (location : Location) : Path := ⟨Path.slash :: Path.joinPieces location⟩

end FileSystem

end LicenseHeader
