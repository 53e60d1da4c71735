import LicenseHeader.Git.Settings

/-!
# Names that no tracked path has

A tracked path cannot lead out of the work tree or into the data of the repository, also not by a
name that some file system takes for theirs. The settings say which file systems are thought of.
-/

namespace LicenseHeader

/-- The kinds of file systems whose ways with names are guarded against. -/
structure NameGuard where
  /-- Those that have short names and leave out blanks and dots at the end of a name. -/
  shortNames : Bool
  /-- Those that leave out characters that are not seen. -/
  unseenCharacters : Bool
  deriving DecidableEq, Repr

namespace NameGuard

/-- The guard that settings ask for. -/
def ofSettings (settings : List Setting) : NameGuard :=
  let flag (name : String) (default : Bool) : Bool :=
    match Setting.find? settings name with
    | none => default
    | some setting => setting.flag?.getD false
  ⟨flag "core.protectntfs" true, flag "core.protecthfs" false⟩

/-- The characters that are not seen in a name: they join or part letters, or say which way they
run. -/
def unseen : List Char :=
  ['\u200C', '\u200D', '\u200E', '\u200F', '\u202A', '\u202B', '\u202C', '\u202D', '\u202E',
    '\u206A', '\u206B', '\u206C', '\u206D', '\u206E', '\u206F', '\uFEFF']

/-- Whether a name is that of the data of a repository, in letters of either case. -/
def isPlain (name : Bytes) : Bool := Ascii.lowered name = Ascii.bytes ".git"

/-- Whether a name is that of the data where short names and the ends of names do not count. -/
def isShort (name : Bytes) : Bool :=
  let start? := ([".git", "git~1"].map Ascii.bytes).find? fun reserved =>
    reserved.isPrefixOf (Ascii.lowered name)
  match start? with
  | none => false
  | some start =>
    let rest := name.drop start.length
    rest.head? = some (Ascii.byte '\\') || rest.head? = some (Ascii.byte ':') ||
      rest.all fun b => b = 0x20 || b = Ascii.byte '.'

/-- Whether a name is that of the data where characters that are not seen do not count. -/
def isVeiled (name : Bytes) : Bool :=
  match Utf8.decode name with
  | .ok text => isPlain (Utf8.encode (text.filter fun c => !unseen.contains c))
  | .error _ => false

/-- Whether no tracked path can have a name in it. -/
def forbids (guard : NameGuard) (name : Bytes) : Bool :=
  name = Ascii.bytes "." || name = Ascii.bytes ".." || isPlain name ||
    (guard.shortNames && isShort name) || (guard.unseenCharacters && isVeiled name)

end NameGuard

end LicenseHeader
