import LicenseHeader.Ignore.Personal

/-!
# Ignore files of a tree

Every directory may hold ignore files, whose rules are about the paths below it: a general one, one
that is shared in a repository, and one in the data of the repository whose work tree starts there.
The rules of one kind come before those of the next, and among files of one kind those of deeper
directories come first. The rules of repositories do not reach into the work tree of another one.
The rules of the person who works come last.
-/

namespace LicenseHeader

/-- The rules of the ignore files in one directory. -/
structure IgnoreLevel where
  /-- The location of the directory. -/
  directory : Location
  /-- The general rules. -/
  general : List IgnoreRule
  /-- The rules that are shared in a repository. -/
  shared : List IgnoreRule
  /-- The rules in the data of a repository. -/
  excluded : List IgnoreRule
  /-- Whether the work tree of a repository starts here. -/
  startsWorkTree : Bool

namespace IgnoreLevel

/-- The path of something below a directory. -/
def pathIn (directory : Location) (name : String) : Path :=
  (FileSystem.pathOf directory).join (Path.ofString name)

/-- The rules of the ignore file at a path; without a file there are none. -/
def rulesAt (files : FileSystem) (path : Path) : List IgnoreRule :=
  match files.read path with
  | .ok content => IgnoreRule.ofContent content
  | .error _ => []

/-- The first line of a file, if it has one and this is text. -/
def firstLine? (content : Bytes) : Option Text :=
  if content.isEmpty then none
  else
    let line := (Utf8.decode (content.takeWhile (· ≠ 0x0A))).toOption
    if content.contains 0x0A then line.map Text.dropLastReturn else line

/-- The path of the data that a file in place of a repository's data leads to: the file names data,
which in turn name those that they share. Paths are taken from the working directory. -/
def sharedData? (files : FileSystem) (content : Bytes) : Option Path := do
  let line ← firstLine? content
  let mark := "gitdir: ".toList
  if !mark.isPrefixOf line then none
  let data : Path := ⟨Utf8.encode (line.drop mark.length)⟩
  let shared ← firstLine? (← (files.read (data.join (Path.ofString "commondir"))).toOption)
  let path : Path := ⟨Utf8.encode shared⟩
  return if shared.head? = some '.' then data.join path else path

/-- The rules of the ignore files in a directory. -/
def ofDirectory (files : FileSystem) (directory : Location) : IgnoreLevel :=
  let data := pathIn directory ".git"
  let dataEntry := files.lookAt data
  let shared := match dataEntry with
    | .ok (.file content _) => sharedData? files content
    | _ => some data
  { directory := directory
    general := rulesAt files (pathIn directory ".ignore")
    shared := rulesAt files (pathIn directory ".gitignore")
    excluded := match shared with
      | some path => rulesAt files (path.join (Path.ofString "info/exclude"))
      | none => []
    startsWorkTree := dataEntry.isOk }

/-- The names of what makes a directory have rules. -/
def marks : List Bytes := [".ignore", ".gitignore", ".git"].map fun name => Utf8.encode name.toList

/-- The levels of a tree, deeper directories first. -/
def all (files : FileSystem) : List IgnoreLevel :=
  (files.tree.directoriesWith marks).map (ofDirectory files)

/-- What rules of a level say about a location below its directory. -/
def verdict (level : IgnoreLevel) (rules : List IgnoreRule) (location : Location)
    (isDirectory : Bool) : Option Bool :=
  IgnoreRule.verdict rules (Path.joinPieces (location.drop level.directory.length)) isDirectory

/-- The levels up to the first at which a work tree starts. -/
def withinWorkTree : List IgnoreLevel → List IgnoreLevel
  | [] => []
  | level :: more => level :: if level.startsWorkTree then [] else withinWorkTree more

/-- What the rules of levels, of which the deeper ones come first, say about a location, if they say
anything: whether it is ignored. -/
def verdictOf (levels : List IgnoreLevel) (location : Location) (isDirectory : Bool) :
    Option Bool :=
  let above := levels.filter fun level =>
    level.directory.isPrefixOf location && level.directory ≠ location
  let near := withinWorkTree above
  let general := above.findSome? fun level => level.verdict level.general location isDirectory
  let shared := near.findSome? fun level => level.verdict level.shared location isDirectory
  let excluded := near.findSome? fun level => level.verdict level.excluded location isDirectory
  (general.or shared).or excluded

end IgnoreLevel

/-- All ignore rules that matter to a walk. -/
structure IgnoreFiles where
  /-- The rules of directories, deeper ones first. -/
  levels : List IgnoreLevel
  /-- The rules of the person who works. -/
  personal : List IgnoreRule

namespace IgnoreFiles

/-- The ignore rules among files. -/
def of (files : FileSystem) : IgnoreFiles := ⟨IgnoreLevel.all files, PersonalRules.all files⟩

/-- Whether a location among files is ignored. -/
def ignores (rules : IgnoreFiles) (files : FileSystem) (location : Location)
    (isDirectory : Bool) : Bool :=
  let personal := IgnoreRule.verdict rules.personal (PersonalRules.subject files location)
    isDirectory
  ((IgnoreLevel.verdictOf rules.levels location isDirectory).or personal).getD false

end IgnoreFiles

end LicenseHeader
