import LicenseHeader.File.Device
import LicenseHeader.Proofs.File.Operations

/-!
# Writing on a device

A file that the device does not open stays as it is. Any other one that the files let be written gets
as much of the content as the device writes (`FileSystem.writeTo_of_write`), and that is all of it
when nothing is reported (`FileSystem.writeTo_done`).
-/

namespace LicenseHeader

/-- Where the device opens a file, what comes of it is up to the files. -/
theorem Device.opened_of_opening {device : Device} {path : Path}
    (opens : device.opening path = none) (allowed : Except IoFault FileSystem) :
    device.opened path allowed = allowed := by
  unfold Device.opened
  rw [opens]

/-- A file is opened where the device opens it and the files allow it. -/
theorem Device.opened_eq_ok {device : Device} {path : Path} {allowed : Except IoFault FileSystem}
    {after : FileSystem} (opened : device.opened path allowed = .ok after) :
    device.opening path = none ∧ allowed = .ok after := by
  unfold Device.opened at opened
  cases opens : device.opening path with
  | some fault =>
    rw [opens] at opened
    contradiction
  | none =>
    rw [opens] at opened
    exact ⟨rfl, opened⟩

namespace Attempt

variable {attempt : Attempt} {files : FileSystem} {result : Except IoFault FileSystem}

/-- Two steps of which none failed. -/
theorem andThen_done {next : FileSystem → Attempt} (done : (attempt.andThen next).fault = none) :
    attempt.fault = none ∧ attempt.andThen next = next attempt.files := by
  unfold andThen at done ⊢
  cases why : attempt.fault with
  | none => exact ⟨rfl, rfl⟩
  | some fault =>
    rw [why] at done
    rw [why] at done
    contradiction

/-- An operation that did not fail. -/
theorem ofResult_done (done : (ofResult files result).fault = none) :
    result = .ok (ofResult files result).files := by
  cases result with
  | ok after => rfl
  | error fault => contradiction

/-- An operation that failed has changed nothing. -/
theorem ofResult_failed (failed : (ofResult files result).fault ≠ none) :
    (ofResult files result).files = files := by
  cases result with
  | ok after => exact absurd rfl failed
  | error fault => rfl

/-- A content is put into an open file as far as the device writes it. -/
theorem ofWriting_of_ok {device : Device} {path : Path} {content : Bytes} {after : FileSystem}
    {put : Bytes → Except IoFault FileSystem}
    (done : put (device.portion path content) = .ok after) :
    ofWriting device files path content put = ⟨after, (device.write path).map (·.2)⟩ := by
  unfold ofWriting
  rw [done]
  rfl

/-- Nothing is put into a file that the files do not let be written. -/
theorem ofWriting_of_error {device : Device} {path : Path} {content : Bytes} {fault : IoFault}
    {put : Bytes → Except IoFault FileSystem}
    (refused : put (device.portion path content) = .error fault) :
    ofWriting device files path content put = ⟨files, some fault⟩ := by
  unfold ofWriting
  rw [refused]
  rfl

end Attempt

namespace FileSystem

variable {device : Device} {files after : FileSystem} {path : Path} {content : Bytes}

/-- A file that does not open is left as it is. -/
theorem writeTo_of_opening {fault : IoFault} (shut : device.opening path = some fault)
    (content : Bytes) : files.writeTo device path content = ⟨files, some fault⟩ := by
  unfold writeTo
  rw [shut]

/-- A file that opens is written as far as the device writes it. -/
theorem writeTo_of_write (opens : device.opening path = none)
    (done : files.write path (device.portion path content) = .ok after) :
    files.writeTo device path content = ⟨after, (device.write path).map (·.2)⟩ := by
  unfold writeTo
  rw [opens]
  exact Attempt.ofWriting_of_ok done

/-- A file that the files do not let be written is left as it is. -/
theorem writeTo_of_error (opens : device.opening path = none) {fault : IoFault}
    (refused : files.write path (device.portion path content) = .error fault) :
    files.writeTo device path content = ⟨files, some fault⟩ := by
  unfold writeTo
  rw [opens]
  exact Attempt.ofWriting_of_error refused

/-- A file is written without a fault only when all of the content is. -/
theorem writeTo_done (done : (files.writeTo device path content).fault = none) :
    files.write path content = .ok (files.writeTo device path content).files := by
  unfold writeTo Attempt.ofWriting Device.portion at done ⊢
  cases opens : device.opening path with
  | some fault =>
    rw [opens] at done
    contradiction
  | none =>
    simp only [opens] at done ⊢
    obtain ⟨first, last⟩ := Attempt.andThen_done done
    rw [last] at done ⊢
    cases stops : device.write path with
    | some limit =>
      rw [stops] at done
      contradiction
    | none =>
      rw [stops] at first
      exact Attempt.ofResult_done first

end FileSystem

end LicenseHeader
