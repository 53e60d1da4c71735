import LicenseHeader.Failure
import LicenseHeader.File.Device
import LicenseHeader.Patch.Hunk

/-!
# Where patches go

When nothing is to be written to the files, the patch of each file can be shown, added to a patch
file, or both.
-/

namespace LicenseHeader

/-- Where patches go. -/
structure PatchOutput where
  /-- Whether patches are shown. -/
  shown : Bool
  /-- The path of the file that patches are added to. -/
  saved : Option Path
  deriving DecidableEq, Repr

namespace PatchOutput

/-- Whether patches go anywhere. -/
def isEnabled (output : PatchOutput) : Bool := output.shown || output.saved.isSome

/-- The files with an empty patch file. -/
def start (output : PatchOutput) (files : FileSystem) (device : Device := .reliable) :
    Except Failure FileSystem :=
  match output.saved with
  | none => .ok files
  | some path =>
    match device.opened path (files.write path []) with
    | .ok after => .ok after
    | .error fault => .error ⟨"Failed to create diff file " ++ path.display, [fault.message]⟩

/-- The files after a patch was to be saved, and what failed. -/
structure Saving where
  /-- The files. -/
  files : FileSystem
  /-- What failed. -/
  failure : Option Failure

/-- The files with a patch added to the patch file, as far as the device does so. -/
def record (output : PatchOutput) (device : Device) (files : FileSystem) (patch : Text) : Saving :=
  match output.saved with
  | none => ⟨files, none⟩
  | some path =>
    match device.opened path (files.append path []) with
    | .error fault => ⟨files, some ⟨"Failed to open diff file " ++ path.display, [fault.message]⟩⟩
    | .ok begun =>
      let done := Attempt.ofWriting device begun path (Utf8.encode patch) (begun.append path)
      let failure (fault : IoFault) : Failure :=
        ⟨"Failed to write diff file " ++ path.display, [fault.message]⟩
      ⟨done.files, done.fault.map failure⟩

/-- The files with a patch added to the patch file, or what failed. -/
def save (output : PatchOutput) (files : FileSystem) (patch : Text)
    (device : Device := .reliable) : Except Failure FileSystem :=
  let saving := output.record device files patch
  match saving.failure with
  | none => .ok saving.files
  | some failure => .error failure

/-- The patch of the file with a name. -/
def render (name : Path) (old new : Text) : Text :=
  Patch.render (Utf8.decodeLossy name.bytes) old new

end PatchOutput

end LicenseHeader
