import LicenseHeader.Failure
import LicenseHeader.File.Fault
import LicenseHeader.Git.Index
import LicenseHeader.Git.SettingsReader

/-!
# Faults of repositories

Why a repository is not found or cannot be opened, why its files cannot be listed, and how that is
said. The words end with the part of the repository that the fault is about.
-/

namespace LicenseHeader

/-- Why a repository is not found or cannot be opened. -/
inductive RepositoryFault where
  /-- No repository is found from a path on. -/
  | notFound (start : Path)
  /-- A path does not lead to anything. -/
  | unresolved (path : Path) (fault : IoFault)
  /-- The file in place of the data is empty. -/
  | emptyLink
  /-- The file in place of the data does not say where the data are. -/
  | malformedLink (file : Path)
  /-- A file that says where the work tree is cannot be looked at. -/
  | unseen (file : Path) (fault : IoFault)
  /-- A settings file is malformed. -/
  | settings (fault : SettingsFault)
  /-- A settings file cannot be looked at. -/
  | unreadSettings (file : Path) (fault : IoFault)
  /-- A settings file includes something from a home directory that is not there. -/
  | homeless
  /-- Settings files include each other without an end. -/
  | deepSettings
  /-- A setting that has to be a flag is none. -/
  | notFlag (value : String)
  /-- A setting that has to be a number is none. -/
  | notNumber (value : String)
  /-- The format of the repository is too new. -/
  | version (number : Int)
  /-- The repository needs something unknown. -/
  | extension (name : String)
  /-- The objects of the repository have an unknown format. -/
  | objectFormat (name : String)
  /-- The path of the work tree is empty. -/
  | emptyWorkTree
  deriving DecidableEq, Repr

/-- The words for a fault of an operation, without its number. -/
def IoFault.words (fault : IoFault) : String := (fault.message.splitOn " (os error").headD ""

/-- Whether a fault means that nothing is there. -/
def IoFault.isAbsence : IoFault → Bool
  | noEntry => true
  | notDirectory => true
  | _ => false

/-- What follows the words for something that is not there. -/
def absenceCode (absent : Bool) : String := if absent then "; code=NotFound (-3)" else ""

namespace RepositoryFault

/-- The fault in words. -/
def message : RepositoryFault → String
  | notFound start =>
    "could not find repository at '" ++ start.display ++ "'; class=Repository (6)" ++
      absenceCode true
  | unresolved path fault =>
    "failed to resolve path '" ++ path.display ++ "': " ++ fault.words ++ "; class=Os (2)" ++
      absenceCode fault.isAbsence
  | emptyLink => "no error"
  | malformedLink file =>
    "the `.git` file at '" ++ file.display ++ "' is malformed; class=Repository (6)"
  | unseen file fault =>
    "could not find '" ++ file.display ++ "' to stat: " ++ fault.words ++ "; class=Os (2)"
  | settings fault => fault.message ++ "; class=Config (7)"
  | unreadSettings file .nameTooLong =>
    "invalid path for filesystem '" ++ file.display ++ "': " ++ IoFault.nameTooLong.words ++
      "; class=Os (2); code=InvalidSpec (-12)"
  | unreadSettings file fault =>
    "could not stat '" ++ file.display ++ "': " ++ fault.words ++ "; class=Os (2)"
  | homeless => "the home directory doesn't exist; class=Os (2)" ++ absenceCode true
  | deepSettings => "maximum config include depth reached; class=Config (7)"
  | notFlag value => "failed to parse '" ++ value ++ "' as a boolean value; class=Config (7)"
  | notNumber value => "failed to parse '" ++ value ++ "' as a 32-bit integer; class=Config (7)"
  | version number =>
    "unsupported repository version " ++ toString number ++
      "; only versions up to 1 are supported; class=Repository (6)"
  | extension name => "unsupported extension name " ++ name ++ "; class=Repository (6)"
  | objectFormat name =>
    "unknown object format '" ++ name ++ "'; class=Repository (6); code=Invalid (-21)"
  | emptyWorkTree => "working directory cannot be set to empty path; class=Net (12)"

end RepositoryFault

/-- Why the head of a repository does not lead on. -/
inductive ReferenceFault where
  /-- The file of the reference, which may be given, does not say where it leads to. -/
  | unreadable (name : Option Bytes)
  /-- The head leads to a name that no reference can have. -/
  | invalidName (name : Bytes)
  /-- The head leads to a name that is too long. -/
  | longName (name : Bytes)
  /-- References lead on to each other too often. -/
  | endless
  /-- The file that holds many references is none. -/
  | packed
  /-- The object that the head leads to is none. -/
  | object
  deriving DecidableEq, Repr

/-- The fault in words. -/
def ReferenceFault.message (fault : ReferenceFault) : String :=
  let shown (name : Bytes) : String := String.ofList (Utf8.decodeLossy name)
  let inReference := "; class=Reference (4)"
  match fault with
  | unreadable none => "corrupted loose reference file" ++ inReference
  | unreadable (some name) => "corrupted loose reference file: " ++ shown name ++ inReference
  | invalidName name =>
    "the given reference name '" ++ shown name ++ "' is not valid" ++ inReference ++
      "; code=InvalidSpec (-12)"
  | longName name =>
    "the provided buffer is too short to hold the normalization of '" ++ shown name ++ "'" ++
      inReference ++ "; code=BufSize (-6)"
  | endless => "cannot resolve reference (>5 levels deep)" ++ inReference
  | packed => "corrupted packed references file" ++ inReference
  | object => "failed to parse loose object: invalid header; class=Object (11)"

/-- Why the files of a repository cannot be listed. -/
inductive ListingFault where
  /-- The index cannot be read. -/
  | unreadIndex (file : Path)
  /-- The index is none. -/
  | index (fault : IndexFault)
  /-- The head does not lead on. -/
  | head (fault : ReferenceFault)
  /-- The work tree is not a directory. -/
  | workTree (path : Path) (fault : IoFault)
  /-- The settings name a file in a home directory that is not there. -/
  | homeless
  deriving DecidableEq, Repr

/-- The fault in words. -/
def ListingFault.message : ListingFault → String
  | unreadIndex file =>
    "failed to read index: '" ++ file.display ++ "' no longer exists; class=Index (10)"
  | index fault => fault.message
  | head fault => fault.message
  | workTree path fault =>
    "failed to open directory '" ++ path.display ++ "': " ++ fault.words ++ "; class=Os (2)" ++
      absenceCode true
  | homeless => RepositoryFault.homeless.message

/-- Why files cannot be taken from a repository. -/
inductive RepositoryError where
  /-- The path does not lead into a repository, for the given reason. -/
  | absent (path : Path) (fault : RepositoryFault)
  /-- The repository with the given data has no work tree. -/
  | bare (data : Path)
  /-- The files cannot be listed. -/
  | unlisted (fault : ListingFault)
  deriving DecidableEq, Repr

namespace RepositoryError

/-- The error in words. -/
def message : RepositoryError → String
  | absent path _ =>
    "Not inside a git repository: " ++ path.display ++
      " (run from a git checkout, or pass --no-git)"
  | bare data => "Git repository at " ++ data.display ++ " has no working tree"
  | unlisted fault => "Failed to list repository files: " ++ fault.message

/-- The error as a failure. -/
def failure (error : RepositoryError) : Failure :=
  match error with
  | absent _ fault => ⟨error.message, [fault.message]⟩
  | bare _ => ⟨error.message, []⟩
  | unlisted fault => ⟨error.message, [fault.message]⟩

end RepositoryError

end LicenseHeader
