import LicenseHeader.File.Operations
import LicenseHeader.Git.Fault

/-!
# Where repositories are

A directory holds the data of a repository when there are a head in it and objects and references in
the directory with the data that it shares with others, which is the directory itself unless a file
names another one. The data are looked for in a directory under their usual name, then in the
directory itself, and so on in the directories above. A file of the usual name leads to data that
lie elsewhere, and ends the search.
-/

namespace LicenseHeader

/-- Where a repository is. -/
structure RepositoryPlace where
  /-- The location of its data. -/
  data : Location
  /-- The location of the data that it shares with other repositories. -/
  shared : Location
  /-- The directory in which the data, or the file that leads to them, were found. -/
  around : Location
  /-- Whether a file led to the data. -/
  linked : Bool
  deriving DecidableEq, Repr

namespace RepositoryPlace

/-- The name of the data of a repository in its work tree. -/
def dataName : Bytes := Ascii.bytes ".git"

/-- The location of something in a directory, by its names. -/
def inside (directory : Location) (names : List String) : Location :=
  directory ++ names.map Ascii.bytes

/-- The entry that a location leads to, through links. -/
def entryAt (files : FileSystem) (location : Location) : Option Entry :=
  (files.lookAt (FileSystem.pathOf location)).toOption

/-- The content of the file that a location leads to. -/
def contentAt? (files : FileSystem) (location : Location) : Option Bytes :=
  match entryAt files location with
  | some (.file content _) => some content
  | _ => none

/-- Whether a location leads to a directory. -/
def isDirectoryAt (files : FileSystem) (location : Location) : Bool :=
  ((entryAt files location).map Entry.isDirectory).getD false

/-- The path of a directory with a slash at its end. -/
def directoryPath (location : Location) : Path :=
  if location = [] then FileSystem.pathOf []
  else ⟨(FileSystem.pathOf location).bytes ++ [Path.slash]⟩

/-- The location that a path leads to, where something has to be. -/
def locate (files : FileSystem) (path : Path) : Except RepositoryFault Location :=
  match files.resolve .followed path with
  | .error fault => .error (.unresolved path fault)
  | .ok location =>
    if (files.tree.get? location).isSome then .ok location
    else .error (.unresolved path .noEntry)

/-- The text of a file up to a zero byte and without the white space at its end. -/
def textOf (content : Bytes) : Bytes := (Ascii.dropSpacesEnd content).takeWhile (· ≠ 0)

/-- Whether a path starts with the directory it is in, or with the one above. -/
def startsWithDots (path : Bytes) : Bool :=
  (Ascii.bytes "./").isPrefixOf path || (Ascii.bytes "../").isPrefixOf path

/-- The location of the data that data at a location share with others. -/
def sharedWith (files : FileSystem) (data : Location) : Except RepositoryFault Location :=
  match contentAt? files (inside data ["commondir"]) with
  | none => .ok data
  | some content =>
    let path : Path := ⟨textOf content⟩
    locate files (if startsWithDots path.bytes then (FileSystem.pathOf data).join path else path)

/-- Whether data at a location, which share data at another one, are those of a repository. -/
def isData (files : FileSystem) (data shared : Location) : Bool :=
  (contentAt? files (inside data ["HEAD"])).isSome &&
    isDirectoryAt files (inside shared ["objects"]) &&
    isDirectoryAt files (inside shared ["refs"])

/-- What the file that leads to data has in front of their path. -/
def linkMark : Bytes := Ascii.bytes "gitdir:"

/-- The location of the data that a file with the given content leads to. -/
def linkTarget (files : FileSystem) (file : Location) (content : Bytes) :
    Except RepositoryFault Location :=
  let text := Ascii.dropSpacesEnd content
  if content.isEmpty then .error .emptyLink
  else if text.length ≤ linkMark.length || !linkMark.isPrefixOf text then
    .error (.malformedLink (FileSystem.pathOf file))
  else
    let target := ((text.drop linkMark.length).takeWhile (· ≠ 0)).dropWhile Ascii.isSpace
    locate files ((FileSystem.pathOf file.dropLast).join ⟨target⟩)

/-- The place of a repository whose data may be at a location; the search started at a path, and it
fails when a file leads to something else. -/
def at? (files : FileSystem) (start : Path) (candidate : Location) :
    Except RepositoryFault (Option RepositoryPlace) := do
  match entryAt files candidate with
  | some .directory =>
    let shared ← sharedWith files candidate
    return if isData files candidate shared then
      some ⟨candidate, shared, candidate.dropLast, false⟩ else none
  | some (.file content _) =>
    if candidate.getLast? ≠ some dataName then return none
    let data ← linkTarget files candidate content
    let shared ← sharedWith files data
    if isData files data shared then return some ⟨data, shared, candidate.dropLast, true⟩
    throw (.notFound start)
  | _ => return none

/-- The directories from a location up to the root. -/
def upwards (location : Location) : List Location :=
  ((List.range (location.length + 1)).map fun count => location.take count).reverse

/-- The locations where data of a repository may be, for one that a location lies in if `searching`
and otherwise for one at this location. The root is looked at only when the search starts there. -/
def candidates (searching : Bool) (location : Location) : List Location :=
  let above := if searching then (upwards location.dropLast).filter (· ≠ []) else []
  (location :: above).flatMap fun directory => [directory ++ [dataName], directory]

/-- The first place among locations. -/
def firstOf (files : FileSystem) (start : Path) :
    List Location → Except RepositoryFault RepositoryPlace
  | [] => .error (.notFound start)
  | candidate :: more =>
    match at? files start candidate with
    | .error fault => .error fault
    | .ok (some place) => .ok place
    | .ok none => firstOf files start more

/-- The place of the repository at a path, or of the one that it lies in if `searching`. -/
def find (files : FileSystem) (searching : Bool) (start : Path) :
    Except RepositoryFault RepositoryPlace := do
  firstOf files start (candidates searching (← locate files start))

end RepositoryPlace

end LicenseHeader
