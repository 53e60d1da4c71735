import LicenseHeader.File.Personal
import LicenseHeader.Ignore.Rule

/-!
# Ignore rules of a person

A person may have ignore rules for all directories. The file with them is the first one that a
settings file of the person names, or else one of a usual name. The settings are not read in full: a
line counts when it writes the right name, an equals sign and one word.
-/

namespace LicenseHeader.PersonalRules

/-- The name of the setting with the path of the rules. -/
def settingName : Bytes := Ascii.bytes "excludesfile"

/-- Whether a line ends after white space of which a line break may be part. -/
def endsLine (text : Bytes) : Bool :=
  (text.takeWhile Ascii.isSpace).contains 0x0A || text.all Ascii.isSpace

/-- Whether a line ends after white space and perhaps a quotation mark. -/
def endsValue (text : Bytes) : Bool :=
  let rest := text.dropWhile Ascii.isSpace
  endsLine text || (rest.head? = some (Ascii.byte '"') && endsLine (rest.drop 1))

/-- The word at the start of a text, up to the first place where the value may end. -/
def word? (text : Bytes) : Option Bytes :=
  let run := (text.takeWhile fun b => !Ascii.isSpace b).length
  ((List.range run).find? fun count => endsValue (text.drop (count + 1))).map fun count =>
    text.take (count + 1)

/-- The word that a setting with the right name writes at the start of a text. -/
def setting? (text : Bytes) : Option Bytes :=
  let start := text.dropWhile Ascii.isSpace
  let after := (start.drop settingName.length).dropWhile Ascii.isSpace
  if !settingName.isPrefixOf (Ascii.lowered start) || after.head? ≠ some (Ascii.byte '=') then none
  else
    let value := (after.drop 1).dropWhile Ascii.isSpace
    let quoted := if value.head? = some (Ascii.byte '"') then
      word? ((value.drop 1).dropWhile Ascii.isSpace) else none
    quoted.or (word? value)

/-- The first word that a line of a text, or a text after it, writes for the setting. -/
def find? (startsLine : Bool) : Bytes → Option Bytes
  | [] => none
  | b :: rest => (if startsLine then setting? (b :: rest) else none).or (find? (b = 0x0A) rest)

/-- The path of the home directory, if one is known. -/
def home? (files : FileSystem) : Option Path := files.home.filter (·.bytes ≠ [])

/-- A path with the home directory in place of every tilde. -/
def expand (files : FileSystem) (path : Bytes) : Path :=
  match home? files with
  | none => ⟨path⟩
  | some home => ⟨path.flatMap fun b => if b = Ascii.byte '~' then home.bytes else [b]⟩

/-- The path of the rules that the settings file at a path names, if it names one. -/
def namedIn? (files : FileSystem) (path : Path) : Option Path := do
  let written ← find? true (← (files.read path).toOption)
  if (Utf8.decode written).isOk then some (expand files written) else none

/-- The path of the rules of a person. -/
def path? (files : FileSystem) : Option Path :=
  let home := home? files
  let settings := (files.settingsHome.filter (·.bytes ≠ [])).or
    (home.map (·.join (Path.ofString ".config")))
  let inHome := home.map (·.join (Path.ofString ".gitconfig"))
  let inSettings := settings.map (·.join (Path.ofString "git/config"))
  ((inHome.bind (namedIn? files)).or (inSettings.bind (namedIn? files))).or
    (settings.map (·.join (Path.ofString "git/ignore")))

/-- The rules of a person. -/
def all (files : FileSystem) : List IgnoreRule :=
  ((path? files).bind fun path => (files.read path).toOption.map IgnoreRule.ofContent).getD []

/-- The path to which the rules of a person are applied for a location: from the working directory
on if it lies there, and the whole path otherwise. -/
def subject (files : FileSystem) (location : Location) : Bytes :=
  if files.workingDirectory.isPrefixOf location then
    Path.joinPieces (location.drop files.workingDirectory.length)
  else (FileSystem.pathOf location).bytes

end LicenseHeader.PersonalRules
