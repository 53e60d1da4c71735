import LicenseHeader.File.Personal
import LicenseHeader.Git.Place
import LicenseHeader.Git.Wildcard

/-!
# Settings files of repositories

A settings file may include others, whose settings stand right after the setting that includes
them. Some files are included only when the data of the repository lie at a certain place or its
head leads to a certain branch. A file that is missing says nothing.
-/

namespace LicenseHeader

namespace SettingsFile

/-- A glob that stands for everything in a directory when it ends with a slash. -/
def wholeDirectory (glob : Bytes) : Bytes :=
  if glob.getLast? = some Path.slash then glob ++ Ascii.bytes "**" else glob

/-- The glob for the place of data that a condition in a settings file means: a path from the
directory of the file or from the home directory on, an absolute path, or the end of a path. -/
def placeGlob (files : FileSystem) (file : Path) (condition : Bytes) : Bytes :=
  let path :=
    if (Ascii.bytes "./").isPrefixOf condition then
      (file.parent.join ⟨condition.drop 2⟩).bytes
    else if FileSystem.startsAtHome condition then
      ((files.fromHome? condition).map (·.bytes)).getD []
    else if condition.head? = some Path.slash then condition
    else Ascii.bytes "**/" ++ condition
  if condition.getLast? = some Path.slash then path ++ Ascii.bytes "**" else path

/-- What the head of a repository has in front of the name that it leads to. -/
def symbolicMark : Bytes := Ascii.bytes "ref: "

/-- The branch that the head of the repository with data at a location leads to. -/
def branch? (files : FileSystem) (data : Location) : Option Bytes := do
  let text := RepositoryPlace.textOf
    (← RepositoryPlace.contentAt? files (RepositoryPlace.inside data ["HEAD"]))
  let mark := symbolicMark ++ Ascii.bytes "refs/heads/"
  if mark.isPrefixOf text then some (text.drop mark.length) else none

/-- Whether a condition in a settings file holds for the repository with data at a location. -/
def holds (files : FileSystem) (data : Location) (file : Path) (condition : Bytes) : Bool :=
  let after (mark : String) : Option Bytes :=
    let mark := Ascii.bytes mark
    if mark.isPrefixOf condition then some (condition.drop mark.length) else none
  let place := (FileSystem.pathOf data).bytes
  match after "gitdir:", after "gitdir/i:", after "onbranch:" with
  | some glob, _, _ => Wildcard.accepts ⟨true, false⟩ (placeGlob files file glob) place
  | none, some glob, _ => Wildcard.accepts ⟨true, true⟩ (placeGlob files file glob) place
  | none, none, some glob =>
    ((branch? files data).map (Wildcard.accepts ⟨true, false⟩ (wholeDirectory glob))).getD false
  | none, none, none => false

/-- The path that a setting in a file includes, as it is written, if it includes one. -/
def included? (files : FileSystem) (data : Location) (file : Path) (setting : Setting) :
    Option Bytes :=
  let front := Ascii.bytes "includeif."
  let back := Ascii.bytes ".path"
  let condition := (setting.name.drop front.length).take
    (setting.name.length - front.length - back.length)
  let includes := setting.name = Ascii.bytes "include.path" ||
    (front.isPrefixOf setting.name && back.isSuffixOf setting.name &&
      front.length + back.length ≤ setting.name.length && holds files data file condition)
  if includes then setting.value else none

/-- The path that a written path in a file means. -/
def meant (files : FileSystem) (file : Path) (path : Bytes) : Except RepositoryFault Path :=
  if FileSystem.startsAtHome path then
    match files.fromHome? path with
    | some path => .ok path
    | none => .error .homeless
  else .ok (file.parent.join ⟨path⟩)

/-- How many settings files may include one another in a row. -/
def depthLimit : Nat := 10

/-- Settings, and the fault at which their reading ended, if it did not come to an end. -/
abbrev Reading := List Setting × Option RepositoryFault

/-- Reads settings one after the other, each with what `within` reads for it, up to the first
fault. -/
def chain (within : Setting → Reading) (last : Option RepositoryFault) : List Setting → Reading
  | [] => ([], last)
  | setting :: more =>
    match within setting with
    | (inner, some fault) => (setting :: inner, some fault)
    | (inner, none) =>
      let rest := chain within last more
      (setting :: inner ++ rest.1, rest.2)

/-- The settings in a file and in those that it includes; `depth` more may be included in a row. A
file that is included ends at a path from a home directory that is not there. -/
def readWithin (files : FileSystem) (data : Location) : Nat → Path → Reading
  | depth, file =>
    match files.read file, depth with
    | .error .manyLinks, _ => ([], some (.unreadSettings file .manyLinks))
    | .error .nameTooLong, _ => ([], some (.unreadSettings file .nameTooLong))
    | .error _, _ => ([], none)
    | .ok _, 0 => ([], some .deepSettings)
    | .ok content, depth + 1 =>
      let (settings, fault) := SettingsReader.read file content
      chain (fun setting =>
        match included? files data file setting with
        | none => ([], none)
        | some path =>
          match meant files file path with
          | .error fault => ([], some fault)
          | .ok path =>
            match readWithin files data depth path with
            | (inner, some .homeless) => (inner, none)
            | inner => inner) (fault.map .settings) settings

/-- The settings in a file of the repository with data at a location, and in those that it includes.
A file that does not exist says nothing, and neither does one that includes something from a home
directory that is not there. -/
def read (files : FileSystem) (data : Location) (file : Path) :
    Except RepositoryFault (List Setting) :=
  if !files.has file then .ok []
  else
    match readWithin files data depthLimit file with
    | (settings, none) => .ok settings
    | (_, some .homeless) => .ok []
    | (_, some fault) => .error fault

end SettingsFile

end LicenseHeader
