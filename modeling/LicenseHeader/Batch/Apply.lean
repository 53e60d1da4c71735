import LicenseHeader.Batch.Replacement
import LicenseHeader.Header.Normalize

/-!
# Applying the header to a file

A file is read as text, and replaced when its text has a normal form of its own.
-/

namespace LicenseHeader

/-- Why the header could not be applied to the file at a path. -/
inductive ApplyError where
  /-- The file is no text. -/
  | decode (path : Path) (fault : Utf8.Fault)
  /-- The file could not be read. -/
  | read (path : Path) (fault : IoFault)
  /-- The file could not be replaced. -/
  | write (path : Path) (fault : IoFault)
  deriving DecidableEq, Repr

namespace ApplyError

/-- The error in words. -/
def message : ApplyError → String
  | decode path fault =>
    "File is not valid UTF-8 text '" ++ path.display ++ "': " ++ fault.message
  | read path fault => "Failed to read file '" ++ path.display ++ "': " ++ fault.message
  | write path fault => "Failed to write file '" ++ path.display ++ "': " ++ fault.message

/-- The error in two words, as reports give it. -/
def reason : ApplyError → String
  | decode _ _ => "encoding issue"
  | read _ _ => "read error"
  | write _ _ => "write error"

end ApplyError

namespace FileSystem

/-- The content of a file as the device gives it. -/
def readFrom (device : Device) (files : FileSystem) (path : Path) : Except IoFault Bytes :=
  match device.read path with
  | some fault => .error fault
  | none => files.read path

/-- The text of a file. -/
def readText (device : Device) (files : FileSystem) (path : Path) : Except ApplyError Text :=
  match files.readFrom device path with
  | .error fault => .error (.read path fault)
  | .ok content =>
    match Utf8.decode content with
    | .error fault => .error (.decode path fault)
    | .ok text => .ok text

/-- The text of a file replaced. -/
def replaceText (device : Device) (files : FileSystem) (path : Path) (text : Text) :
    FileSystem × Except ApplyError Unit :=
  let done := Replacement.replace device files path (Utf8.encode text)
  match done.fault with
  | none => (done.files, .ok ())
  | some fault => (done.files, .error (.write path fault))

/-- The header applied to a file, and whether the file was changed. -/
def applyHeader (device : Device) (files : FileSystem) (path : Path) (style : Style) :
    FileSystem × Except ApplyError Bool :=
  match files.readText device path with
  | .error error => (files, .error error)
  | .ok text =>
    match normalize style text with
    | none => (files, .ok false)
    | some new =>
      let replaced := files.replaceText device path new
      (replaced.1, replaced.2.map fun _ => true)

end FileSystem

end LicenseHeader
