import LicenseHeader.File.Device

/-!
# Replacing a file

The new content is written to a staging file beside the file, which gets the permission bits of the
file and is then renamed over it; when a step fails the staging file is removed.
`Replacement.moments` lists the states that the files go through.
-/

namespace LicenseHeader

namespace Replacement

/-- What the name of a staging file ends in. -/
def suffix : String := ".hdrsync-tmp"

/-- The path of the staging file for a file: beside it, with a longer name. -/
def stagingPath (path : Path) : Path :=
  path.withFileName (path.fileName?.getD [] ++ Utf8.encode suffix.toList)

/-- The new content written to the staging file, as far as the device does so. -/
def stage (device : Device) (files : FileSystem) (staging : Path) (content : Bytes) : Attempt :=
  files.writeTo device staging content

/-- The permission bits set, if there are any to set. -/
def settle (device : Device) (staging : Path) (mode : Option Nat) (files : FileSystem) : Attempt :=
  match mode with
  | none => ⟨files, none⟩
  | some mode =>
    match device.setMode staging with
    | some fault => ⟨files, some fault⟩
    | none => .ofResult files (files.setMode staging mode)

/-- The staging file renamed over the file. -/
def swap (device : Device) (staging path : Path) (files : FileSystem) : Attempt :=
  match device.rename staging with
  | some fault => ⟨files, some fault⟩
  | none => .ofResult files (files.rename staging path)

/-- The files without the staging file, if it can be removed. -/
def cleanUp (device : Device) (staging : Path) (files : FileSystem) : FileSystem :=
  match device.remove staging with
  | some _ => files
  | none => (files.remove staging).toOption.getD files

/-- The permission bits of the file at a path, if something is there. -/
def modeAt (files : FileSystem) (path : Path) : Option Nat :=
  (files.lookAt path).toOption.map Entry.mode

/-- All steps up to renaming, as far as they succeed. -/
def attempt (device : Device) (files : FileSystem) (path : Path) (content : Bytes) : Attempt :=
  let staging := stagingPath path
  ((stage device files staging content).andThen
    (settle device staging (modeAt files path))).andThen (swap device staging path)

/-- The content of the file at a path replaced. -/
def replace (device : Device) (files : FileSystem) (path : Path) (content : Bytes) : Attempt :=
  let done := attempt device files path content
  match done.fault with
  | none => done
  | some fault => ⟨cleanUp device (stagingPath path) done.files, some fault⟩

/-- The files with every part of the content that is written on the way in the staging file; there
are none when the staging file cannot be opened. -/
def drafts (device : Device) (files : FileSystem) (staging : Path) (content : Bytes) :
    List FileSystem :=
  match device.opening staging with
  | some _ => []
  | none =>
    (List.range ((device.portion staging content).length + 1)).filterMap fun count =>
      (files.write staging (content.take count)).toOption

/-- The states that the files go through: before, with every part of the content that is written on
the way in the staging file, with its permission bits set, after renaming, and at the end. -/
def moments (device : Device) (files : FileSystem) (path : Path) (content : Bytes) :
    List FileSystem :=
  let staging := stagingPath path
  let settled := (stage device files staging content).andThen
    (settle device staging (modeAt files path))
  files :: drafts device files staging content ++
    [settled.files, (attempt device files path content).files,
      (replace device files path content).files]

end Replacement

end LicenseHeader
