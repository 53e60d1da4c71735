import LicenseHeader.File.Operations
import LicenseHeader.Text.Ascii

/-!
# Files of a person

Settings and ignore rules for all repositories of a person lie in the home directory, or in a
directory for the settings of programs. A path in a settings file may start from the home directory.
-/

namespace LicenseHeader.FileSystem

/-- The path of the home directory, if there is something. -/
def homeDirectory? (files : FileSystem) : Option Path :=
  files.home.filter fun home => home.bytes ≠ [] && files.has home

/-- The path of the directory for what concerns repositories, if one is known. -/
def repositorySettings? (files : FileSystem) : Option Path :=
  match files.settingsHome with
  | some directory => some (directory.join (Path.ofString "git"))
  | none => files.home.map (·.join (Path.ofString ".config/git"))

/-- The paths of the settings files of a person; those in the home directory come last. -/
def personalSettings (files : FileSystem) : List Path :=
  let home := files.home.filter (·.bytes ≠ [])
  (files.repositorySettings?.map (·.join (Path.ofString "config"))).toList ++
    (home.map (·.join (Path.ofString ".gitconfig"))).toList

/-- The path of the ignore rules of a person. -/
def personalRules? (files : FileSystem) : Option Path :=
  files.repositorySettings?.map (·.join (Path.ofString "ignore"))

/-- Whether a path in a settings file starts from the home directory. -/
def startsAtHome (path : Bytes) : Bool := (Ascii.bytes "~/").isPrefixOf path

/-- A path that starts from the home directory, from where this is. -/
def fromHome? (files : FileSystem) (path : Bytes) : Option Path :=
  files.homeDirectory?.map (·.join ⟨(path.drop 1).dropWhile (· = Path.slash)⟩)

end LicenseHeader.FileSystem
