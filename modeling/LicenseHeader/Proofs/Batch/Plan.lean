import LicenseHeader.Batch.Basic
import LicenseHeader.Proofs.Batch.Replacement
import LicenseHeader.Proofs.File.Operations
import LicenseHeader.Proofs.Header.NormalForm

/-!
# What is to be done to a file

`Candidate.plan` says of an entry which text is to be written in its place, if any, or why the entry
cannot be read. Checking a file tells the plan for its entry (`result_checkFile`), and applying the
header carries the plan out unless something obstructs it (`applied_applyHeader`).
-/

namespace LicenseHeader

open Replacement

namespace FileSystem

/-- The entry that a path names, if there is one. -/
def entry? (files : FileSystem) (path : Path) : Option Entry := (files.lookAtLink path).toOption

/-- The entry that a path names is the one at its location. -/
theorem entry?_of_resolve {files : FileSystem} {path : Path} {goal : Location}
    (found : files.resolve .kept path = .ok goal) : files.entry? path = files.tree.get? goal := by
  unfold entry? lookAtLink
  rw [found]
  simp only [bind, Except.bind]
  cases files.tree.get? goal with
  | none => rfl
  | some entry => rfl

/-- A path that names no location names no entry. -/
theorem entry?_of_error {files : FileSystem} {path : Path} {fault : IoFault}
    (lost : files.resolve .kept path = .error fault) : files.entry? path = none := by
  unfold entry? lookAtLink
  rw [lost]
  rfl

/-- The entry that a path names is at some location. -/
theorem exists_of_entry? {files : FileSystem} {path : Path} {entry : Entry}
    (named : files.entry? path = some entry) :
    ∃ goal, files.resolve .kept path = .ok goal ∧ files.tree.get? goal = some entry := by
  cases found : files.resolve .kept path with
  | error fault =>
    rw [entry?_of_error found] at named
    contradiction
  | ok goal => exact ⟨goal, rfl, entry?_of_resolve found ▸ named⟩

end FileSystem

namespace Candidate

variable {device : Device} {c : Candidate} {entry : Option Entry}

/-- The text of a candidate whose path names the given entry, or in two words why it cannot be
read. -/
def textOf (device : Device) (c : Candidate) (entry : Option Entry) : Except String Text :=
  match device.read c.path, entry with
  | none, some (.file content _) =>
    match Utf8.decode content with
    | .ok text => .ok text
    | .error _ => .error "encoding issue"
  | _, _ => .error "read error"

/-- The text that is to be written in the place of the entry that a candidate names, if any, or in
two words why the entry cannot be read. -/
def plan (device : Device) (c : Candidate) (entry : Option Entry) : Except String (Option Text) :=
  (c.textOf device entry).map (normalize c.style)

/-- A text is that of a file which the device reads. -/
theorem textOf_eq_ok_iff {text : Text} : c.textOf device entry = .ok text ↔
    device.read c.path = none ∧ ∃ mode, entry = some (.file (Utf8.encode text) mode) := by
  unfold textOf
  constructor
  · intro read
    split at read
    next content mode readable =>
      split at read
      next other decoded =>
        obtain rfl := Except.ok.inj read
        exact ⟨readable, mode, by rw [Utf8.decode_eq_ok_iff.mp decoded]⟩
      · contradiction
    · contradiction
  · rintro ⟨readable, mode, rfl⟩
    rw [readable]
    simp only [Utf8.decode_eq_ok_iff.mpr rfl]

/-- What is planned for an entry that can be read is its normal form, if that is another text. -/
theorem plan_eq_ok_iff {next : Option Text} : c.plan device entry = .ok next ↔
    ∃ text, c.textOf device entry = .ok text ∧ normalize c.style text = next := by
  unfold plan
  cases c.textOf device entry with
  | error reason => simp [Except.map]
  | ok text => simp [Except.map]

/-- What the device does not read cannot be read. -/
theorem plan_of_fault {fault : IoFault} (failing : device.read c.path = some fault)
    (entry : Option Entry) : c.plan device entry = .error "read error" := by
  unfold plan textOf
  rw [failing]
  rfl

/-- Nothing is planned for what has been written as planned. -/
theorem plan_of_plan {new : Text} (planned : c.plan device entry = .ok (some new)) (mode : Nat) :
    c.plan device (some (.file (Utf8.encode new) mode)) = .ok none := by
  obtain ⟨text, read, rebuilt⟩ := plan_eq_ok_iff.mp planned
  obtain ⟨readable, -⟩ := textOf_eq_ok_iff.mp read
  have canonical := normalize_of_prefix (header_prefix_of_made rebuilt)
  exact plan_eq_ok_iff.mpr ⟨new, textOf_eq_ok_iff.mpr ⟨readable, mode, rfl⟩, canonical⟩

/-- A reason why an entry cannot be read is not that it cannot be written. -/
theorem reason_ne_of_plan {reason : String} (failed : c.plan device entry = .error reason) :
    reason ≠ "write error" := by
  unfold plan textOf at failed
  split at failed
  · split at failed
    · contradiction
    · obtain rfl := Except.error.inj failed
      decide
  · obtain rfl := Except.error.inj failed
    decide

end Candidate

section Applied

variable {device : Device} {files : FileSystem} {c : Candidate}

/-- A file is read as text, or fails for the reason that its entry gives. -/
theorem readText_eq (device : Device)
    (solid : ∀ target, files.lookAtLink c.path ≠ .ok (.link target)) :
    (files.readText device c.path).mapError ApplyError.reason =
      c.textOf device (files.entry? c.path) := by
  unfold FileSystem.readText FileSystem.readFrom Candidate.textOf
  cases device.read c.path with
  | some fault => rfl
  | none =>
    cases read : files.read c.path with
    | ok content =>
      obtain ⟨goal, mode, found, there⟩ := (FileSystem.read_eq_ok_iff solid).mp read
      rw [FileSystem.entry?_of_resolve found, there]
      dsimp only
      cases Utf8.decode content with
      | ok text => rfl
      | error fault => rfl
    | error fault =>
      cases named : files.entry? c.path with
      | none => rfl
      | some entry =>
        cases entry with
        | file content mode =>
          obtain ⟨goal, found, there⟩ := FileSystem.exists_of_entry? named
          rw [(FileSystem.read_eq_ok_iff solid).mpr ⟨goal, mode, found, there⟩] at read
          contradiction
        | directory => rfl
        | link target => rfl

/-- What applying the header to a file has done: nothing where nothing is planned, and the planned
replacement unless something obstructs it. -/
inductive Applied (device : Device) (files : FileSystem) (c : Candidate) :
    FileSystem → Except ApplyError Bool → Prop where
  /-- The entry cannot be read. -/
  | unread (error : ApplyError)
      (failed : c.plan device (files.entry? c.path) = .error error.reason) :
      Applied device files c files (.error error)
  /-- The text is its own normal form. -/
  | canonical (right : c.plan device (files.entry? c.path) = .ok none) :
      Applied device files c files (.ok false)
  /-- The normal form is written. -/
  | updated {goal place : Location} {old : Bytes} {mode : Nat} {new : Text} {after : FileSystem}
      (planned : c.plan device (files.entry? c.path) = .ok (some new))
      (able : Replaceable files c.path goal old mode)
      (free : isObstructed device files c.path = false)
      (made : files.resolve .created (stagingPath c.path) = .ok place)
      (touched : files.Touched after goal place (some (.file (Utf8.encode new) mode)) none) :
      Applied device files c after (.ok true)
  /-- The normal form cannot be written, as no staging file can be made. -/
  | refused {goal : Location} {old : Bytes} {mode : Nat} {new : Text} (fault : IoFault)
      (planned : c.plan device (files.entry? c.path) = .ok (some new))
      (able : Replaceable files c.path goal old mode)
      (blocked : isObstructed device files c.path = true)
      (unmade : (files.resolve .created (stagingPath c.path)).isOk = false) :
      Applied device files c files (.error (.write c.path fault))
  /-- The normal form cannot be written, and the staging file is removed or left. -/
  | dropped {goal place : Location} {old : Bytes} {mode : Nat} {new : Text} {after : FileSystem}
      (fault : IoFault) (planned : c.plan device (files.entry? c.path) = .ok (some new))
      (able : Replaceable files c.path goal old mode)
      (blocked : isObstructed device files c.path = true)
      (made : files.resolve .created (stagingPath c.path) = .ok place)
      (touched : files.Touched after goal place (files.tree.get? goal)
        (leftover device (stagingPath c.path) (Utf8.encode new) mode (files.tree.get? place))) :
      Applied device files c after (.error (.write c.path fault))

/-- Applying the header to a file does what is planned for its entry. -/
theorem applied_applyHeader (device : Device)
    (solid : ∀ target, files.lookAtLink c.path ≠ .ok (.link target))
    (loose : ∀ place, files.resolve .kept (stagingPath c.path) = .ok place →
      files.tree.IsLeaf place ∧ files.resolve .kept c.path ≠ .ok place) :
    Applied device files c (files.applyHeader device c.path c.style).1
      (files.applyHeader device c.path c.style).2 := by
  have read := readText_eq device solid
  unfold FileSystem.applyHeader
  cases given : files.readText device c.path with
  | error error =>
    rw [given] at read
    refine .unread error ?_
    unfold Candidate.plan
    rw [← read]
    rfl
  | ok text =>
    rw [given] at read
    have planned : c.plan device (files.entry? c.path) = .ok (normalize c.style text) := by
      unfold Candidate.plan
      rw [← read]
      rfl
    dsimp only
    cases rebuilt : normalize c.style text with
    | none => exact .canonical (rebuilt ▸ planned)
    | some new =>
      obtain ⟨-, mode, named⟩ := Candidate.textOf_eq_ok_iff.mp read.symm
      obtain ⟨goal, found, file⟩ := FileSystem.exists_of_entry? named
      have able : Replaceable files c.path goal (Utf8.encode text) mode := by
        refine ⟨found, file, fun place staged => ?_⟩
        obtain ⟨leaf, apart⟩ := loose place staged
        refine ⟨leaf, ?_⟩
        rintro rfl
        exact apart found
      have replaced := able.replaced device (Utf8.encode new)
      rw [rebuilt] at planned
      unfold FileSystem.replaceText
      dsimp only
      cases hindered : isObstructed device files c.path with
      | false =>
        rw [hindered] at replaced
        generalize replace device files c.path (Utf8.encode new) = done at replaced ⊢
        cases replaced with
        | done made touched => exact .updated planned able hindered made touched
      | true =>
        rw [hindered] at replaced
        generalize replace device files c.path (Utf8.encode new) = done at replaced ⊢
        cases replaced with
        | refused fault unmade => exact .refused fault planned able hindered unmade
        | dropped fault made touched => exact .dropped fault planned able hindered made touched

/-- What is reported for a plan, where something may keep the file from being written. -/
def Candidate.report (c : Candidate) (blocked : Bool) : Except String (Option Text) → Report
  | .error reason => .because c .failed reason
  | .ok none => .plain c .unchanged
  | .ok (some _) => if blocked then .because c .failed "write error" else .plain c .updated

/-- Applying the header to a file reports its plan. -/
theorem Applied.reportOf_eq {after : FileSystem} {result : Except ApplyError Bool}
    (applied : Applied device files c after result) : Batch.reportOf c result =
      c.report (isObstructed device files c.path) (c.plan device (files.entry? c.path)) := by
  cases applied with
  | unread error failed =>
    rw [failed]
    rfl
  | canonical right =>
    rw [right]
    rfl
  | updated planned _ free _ _ =>
    rw [planned, free]
    rfl
  | refused fault planned _ blocked _ =>
    rw [planned, blocked]
    rfl
  | dropped fault planned _ blocked _ _ =>
    rw [planned, blocked]
    rfl

/-- Checking a file reports its plan as if nothing could keep the file from being written. -/
theorem reportOf_checkFile (batch : Batch) (device : Device)
    (solid : ∀ target, files.lookAtLink c.path ≠ .ok (.link target)) :
    Batch.reportOf c (batch.checkFile device files c).result =
      c.report false (c.plan device (files.entry? c.path)) := by
  have read := readText_eq device solid
  unfold Batch.checkFile Candidate.plan
  rw [← read]
  cases files.readText device c.path with
  | error error => rfl
  | ok text =>
    simp only [Except.mapError, Except.map]
    cases normalize c.style text with
    | none => rfl
    | some new => rfl

/-- A run that writes applies the header to a file. -/
theorem processFile_of_writes {batch : Batch} (writes : batch.checkOnly = false) :
    batch.processFile device files c =
      ⟨(files.applyHeader device c.path c.style).1, [],
        (files.applyHeader device c.path c.style).2⟩ := by
  unfold Batch.processFile
  rw [writes]
  rfl

/-- A run that writes nothing checks a file. -/
theorem processFile_of_checks {batch : Batch} (checks : batch.checkOnly = true) :
    batch.processFile device files c = batch.checkFile device files c := by
  unfold Batch.processFile
  rw [checks]
  rfl

end Applied

end LicenseHeader
