import LicenseHeader.File.Operations

/-!
# Devices that fail

A device says which operations fail for other reasons than the files themselves. A file is written
in two steps that can fail. When it cannot be opened, nothing has happened to it: it was neither
made nor emptied. When writing stops, it holds what has been written of the content until then.
-/

namespace LicenseHeader

/-- Which operations fail although the files allow them. -/
structure Device where
  /-- Why the file at a path cannot be read. -/
  read : Path → Option IoFault
  /-- Why the file at a path cannot be opened for writing. -/
  opening : Path → Option IoFault
  /-- After how many bytes writing the file at a path stops once it is open, and why. -/
  write : Path → Option (Nat × IoFault)
  /-- Why the permission bits of the file at a path cannot be set. -/
  setMode : Path → Option IoFault
  /-- Why the file at a path cannot be renamed. -/
  rename : Path → Option IoFault
  /-- Why the file at a path cannot be removed. -/
  remove : Path → Option IoFault

namespace Device

/-- The device on which every operation succeeds that the files allow. -/
def reliable : Device where
  read _ := none
  opening _ := none
  write _ := none
  setMode _ := none
  rename _ := none
  remove _ := none

/-- How much of a content is written to the open file at a path. -/
def portion (device : Device) (path : Path) (content : Bytes) : Bytes :=
  match device.write path with
  | none => content
  | some (count, _) => content.take count

/-- What comes of opening the file at a path, given what the files allow. -/
def opened (device : Device) (path : Path) (allowed : Except IoFault FileSystem) :
    Except IoFault FileSystem :=
  match device.opening path with
  | some fault => .error fault
  | none => allowed

end Device

/-- The files after some steps, and why the last one failed if it did. -/
structure Attempt where
  /-- The files. -/
  files : FileSystem
  /-- Why the last step failed. -/
  fault : Option IoFault
  deriving DecidableEq, Repr

namespace Attempt

/-- The outcome of an operation on files. -/
def ofResult (files : FileSystem) : Except IoFault FileSystem → Attempt
  | .ok after => ⟨after, none⟩
  | .error fault => ⟨files, some fault⟩

/-- One more step, unless one failed. -/
def andThen (attempt : Attempt) (next : FileSystem → Attempt) : Attempt :=
  match attempt.fault with
  | none => next attempt.files
  | some _ => attempt

/-- The outcome of putting a content into an open file, as far as the device writes it. -/
def ofWriting (device : Device) (files : FileSystem) (path : Path) (content : Bytes)
    (put : Bytes → Except IoFault FileSystem) : Attempt :=
  (ofResult files (put (device.portion path content))).andThen
    (⟨·, (device.write path).map (·.2)⟩)

end Attempt

namespace FileSystem

/-- The file at a path opened and its content replaced in place, as far as the device does so. -/
def writeTo (device : Device) (files : FileSystem) (path : Path) (content : Bytes) : Attempt :=
  match device.opening path with
  | some fault => ⟨files, some fault⟩
  | none => .ofWriting device files path content (files.write path)

end FileSystem

end LicenseHeader
