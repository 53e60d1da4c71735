import LicenseHeader.Proofs.Batch.Plan

/-!
# The entries that are due

`Treated` says what applying the header to one file does. `Due` says of the files at the start which
entry is to come to which location, and `Reached` that some of these entries have come and nothing
else has changed. This is what processing files keeps up: whatever has come, every path still names
its location and every file that waits is as it was.
-/

namespace LicenseHeader

open Replacement

/-- What applying the header to a file does: the file is rewritten, it was right already, or it
could not be rewritten. -/
inductive Treated (device : Device) (before : FileSystem) (candidate : Candidate) (goal : Location)
    (old : Bytes) (mode : Nat) : FileSystem → Except ApplyError Bool → Prop where
  /-- The normal form is written. -/
  | updated {after : FileSystem} {text new : Text} (readable : device.read candidate.path = none)
      (bytes : Utf8.encode text = old) (rebuilt : normalize candidate.style text = some new)
      (free : isObstructed device before candidate.path = false)
      (changed : before.ChangedAt after goal (.file (Utf8.encode new) mode)) :
      Treated device before candidate goal old mode after (.ok true)
  /-- The text has no other normal form. -/
  | unchanged {text : Text} (bytes : Utf8.encode text = old)
      (canonical : normalize candidate.style text = none) :
      Treated device before candidate goal old mode before (.ok false)
  /-- The text cannot be read, or its normal form not be written. -/
  | failed {after : FileSystem} (error : ApplyError)
      (hindered : ∀ text, device.read candidate.path = none → Utf8.encode text = old →
        normalize candidate.style text ≠ none ∧ isObstructed device before candidate.path = true)
      (same : before.Agrees after) :
      Treated device before candidate goal old mode after (.error error)

/-- Applying the header to a file that can be replaced safely does one of these things. -/
theorem treated_applyHeader {device : Device} {files : FileSystem} {candidate : Candidate}
    {goal : Location} {old : Bytes} {mode : Nat}
    (ready : Ready device files candidate.path goal old mode) :
    Treated device files candidate goal old mode
      (files.applyHeader device candidate.path candidate.style).1
      (files.applyHeader device candidate.path candidate.style).2 := by
  have content : files.read candidate.path = .ok old := by
    unfold FileSystem.read
    rw [FileSystem.lookAt_of_resolve ready.found ready.file]
    rfl
  unfold FileSystem.applyHeader FileSystem.readText FileSystem.readFrom
  cases readable : device.read candidate.path with
  | some fault =>
    refine .failed _ (fun text free => ?_) (.refl files)
    rw [readable] at free
    contradiction
  | none =>
    simp only [content]
    cases decoded : Utf8.decode old with
    | error fault =>
      refine .failed _ (fun text free bytes => ?_) (.refl files)
      rw [Utf8.decode_eq_ok_iff.mpr bytes] at decoded
      contradiction
    | ok text =>
      have bytes := Utf8.decode_eq_ok_iff.mp decoded
      cases rebuilt : normalize candidate.style text with
      | none =>
        simp only [rebuilt]
        exact .unchanged bytes rebuilt
      | some new =>
        simp only [rebuilt]
        unfold FileSystem.replaceText
        cases hindered : isObstructed device files candidate.path with
        | false =>
          obtain ⟨done, changed⟩ := ready.changedAt_replace hindered (Utf8.encode new)
          simp only [done]
          exact .updated readable bytes rebuilt hindered changed
        | true =>
          obtain ⟨failed, same⟩ := ready.agrees_replace hindered (Utf8.encode new)
          cases why : (replace device files candidate.path (Utf8.encode new)).fault with
          | none => exact absurd why failed
          | some fault =>
            simp only [why]
            refine .failed _ (fun other _ again => ⟨?_, hindered⟩) same
            rw [Utf8.encode_inj.mp (again.trans bytes.symm), rebuilt]
            exact Option.some_ne_none new

/-- Whether the file of a candidate is to be rewritten, so that an entry comes to a location. -/
inductive Due (device : Device) (files : FileSystem) (candidate : Candidate) :
    Location → Entry → Prop where
  /-- The file is text with another normal form, and nothing keeps it from being replaced. -/
  | rewrite {goal : Location} {text new : Text} {mode : Nat}
      (found : files.resolve .kept candidate.path = .ok goal)
      (file : files.tree.get? goal = some (.file (Utf8.encode text) mode))
      (readable : device.read candidate.path = none)
      (rebuilt : normalize candidate.style text = some new)
      (free : isObstructed device files candidate.path = false) :
      Due device files candidate goal (.file (Utf8.encode new) mode)

/-- Whether the file of a candidate at a location is text that is its own normal form. -/
def IsCanonical (files : FileSystem) (candidate : Candidate) (goal : Location) : Prop :=
  ∃ text mode, files.tree.get? goal = some (.file (Utf8.encode text) mode) ∧
    normalize candidate.style text = none

/-- Candidates that can be processed safely: each is a file of its own that can be replaced. -/
structure Workload (device : Device) (files : FileSystem) (candidates : List Candidate) : Prop where
  /-- Each can be replaced. -/
  ready : ∀ c ∈ candidates, ∃ goal old mode, Ready device files c.path goal old mode
  /-- No file has two candidates. -/
  single : ∀ c ∈ candidates, ∀ d ∈ candidates, ∀ goal,
    files.resolve .kept c.path = .ok goal → files.resolve .kept d.path = .ok goal → c = d

/-- Whether files are reached from others by writing some of the entries that are due. -/
structure Reached (device : Device) (start : FileSystem) (candidates : List Candidate)
    (now : FileSystem) : Prop where
  /-- Nothing but the tree is another. -/
  rest : now = { start with tree := now.tree }
  /-- Every location has the entry that it had or one that was due. -/
  entries : ∀ place, now.tree.get? place = start.tree.get? place ∨
    ∃ c ∈ candidates, ∃ new, Due device start c place new ∧ now.tree.get? place = some new

namespace Due

variable {device : Device} {files : FileSystem} {candidate : Candidate} {goal : Location}
  {new : Entry}

/-- What is due comes to the file of the candidate. -/
theorem found (due : Due device files candidate goal new) :
    files.resolve .kept candidate.path = .ok goal := by
  cases due with
  | rewrite found _ _ _ _ => exact found

/-- What is due is a file that has a canonical text in the place of a file. -/
theorem leaf (due : Due device files candidate goal new) :
    files.tree.IsLeaf goal ∧ new.isFile = true := by
  cases due with
  | rewrite _ file _ _ _ =>
    refine ⟨fun entry there => ?_, rfl⟩
    rw [file] at there
    obtain rfl := Option.some.inj there
    rfl

/-- What is due is not there yet. -/
theorem ne (due : Due device files candidate goal new) : files.tree.get? goal ≠ some new := by
  cases due with
  | rewrite _ file _ rebuilt _ =>
    rename_i text new mode
    rw [file]
    intro same
    have bytes := (Entry.file.inj (Option.some.inj same)).1
    obtain ⟨missing, made⟩ := normalize_eq_some_iff.mp rebuilt
    have text := Utf8.encode_inj.mp bytes
    exact compose_ne _ missing (made.symm.trans text.symm)

/-- One entry is due at a location for a candidate. -/
theorem unique (due : Due device files candidate goal new) {other : Entry}
    (also : Due device files candidate goal other) : new = other := by
  cases due with
  | rewrite _ file _ rebuilt _ =>
    cases also with
    | rewrite _ again _ remade _ =>
      rw [file] at again
      obtain ⟨bytes, rfl⟩ := Entry.file.inj (Option.some.inj again)
      obtain rfl := Utf8.encode_inj.mp bytes
      rw [rebuilt] at remade
      obtain rfl := Option.some.inj remade
      rfl

/-- A file to be rewritten is not canonical yet. -/
theorem not_isCanonical (due : Due device files candidate goal new) :
    ¬ IsCanonical files candidate goal := by
  intro ⟨text, mode, there, canonical⟩
  cases due with
  | rewrite _ file _ rebuilt _ =>
    rw [file] at there
    obtain ⟨bytes, rfl⟩ := Entry.file.inj (Option.some.inj there)
    obtain rfl := Utf8.encode_inj.mp bytes
    rw [rebuilt] at canonical
    contradiction

/-- The file is read by the device. -/
theorem readable (due : Due device files candidate goal new) :
    device.read candidate.path = none := by
  cases due with
  | rewrite _ _ readable _ _ => exact readable

/-- What is due is a canonical text. -/
theorem canonical {content : Bytes} {mode : Nat}
    (due : Due device files candidate goal (.file content mode)) {text : Text}
    (bytes : Utf8.encode text = content) : normalize candidate.style text = none := by
  cases due with
  | rewrite _ _ _ rebuilt _ =>
    apply normalize_of_prefix
    rw [Utf8.encode_inj.mp bytes]
    exact header_prefix_of_made rebuilt

/-- A file is canonical once what was due is there. -/
theorem isCanonical (due : Due device files candidate goal new) {after : FileSystem}
    (there : after.tree.get? goal = some new) : IsCanonical after candidate goal := by
  cases due with
  | rewrite found file readable rebuilt free =>
    have due : Due device files candidate goal _ := .rewrite found file readable rebuilt free
    exact ⟨_, _, there, due.canonical rfl⟩

end Due

namespace Reached

variable {device : Device} {start now : FileSystem} {candidates : List Candidate}

/-- The start is reached. -/
theorem refl : Reached device start candidates start := ⟨rfl, fun _ => .inl rfl⟩

/-- The files that are reached differ from those at the start in nothing but files. -/
theorem alike (reached : Reached device start candidates now) : start.tree.Alike now.tree := by
  intro place
  rcases reached.entries place with same | ⟨c, -, new, due, there⟩
  · exact .inl same
  · refine .inr ⟨due.leaf.1, fun entry here => ?_⟩
    rw [there] at here
    obtain rfl := Option.some.inj here
    exact due.leaf.2

/-- The files that are reached resemble those at the start. -/
theorem resembles (reached : Reached device start candidates now) : start.Resembles now :=
  ⟨reached.rest, reached.alike⟩

/-- Where nothing was due nothing has changed. -/
theorem get?_eq (reached : Reached device start candidates now) {place : Location}
    (idle : ∀ c ∈ candidates, ∀ new, ¬ Due device start c place new) :
    now.tree.get? place = start.tree.get? place := by
  rcases reached.entries place with same | ⟨c, member, new, due, -⟩
  · exact same
  · exact absurd due (idle c member new)

/-- A path names the same location as at the start. -/
theorem resolve_iff (reached : Reached device start candidates now) {last : LastName} {path : Path}
    {goal : Location} :
    now.resolve last path = .ok goal ↔ start.resolve last path = .ok goal :=
  reached.resembles.resolve_iff

/-- The same obstructs a replacement as at the start. -/
theorem isObstructed_eq (reached : Reached device start candidates now) (path : Path) :
    isObstructed device now path = isObstructed device start path :=
  isObstructed_of_resembles reached.resembles device path

/-- Nothing is found where nothing was at the start. -/
theorem isOk_lookAtLink (reached : Reached device start candidates now) {path : Path}
    (clear : (start.lookAtLink path).isOk = false) : (now.lookAtLink path).isOk = false := by
  cases here : now.lookAtLink path with
  | error fault => rfl
  | ok entry =>
    obtain ⟨goal, found, there⟩ := FileSystem.lookAtLink_eq_ok_iff.mp here
    have before : start.tree.get? goal = none := by
      cases old : start.tree.get? goal with
      | none => rfl
      | some entry =>
        rw [FileSystem.lookAtLink_eq_ok_iff.mpr ⟨goal, reached.resolve_iff.mp found, old⟩] at clear
        contradiction
    rcases reached.entries goal with same | ⟨c, -, new, due, -⟩
    · rw [same, before] at there
      contradiction
    · cases due with
      | rewrite _ file _ _ _ =>
        rw [before] at file
        contradiction

/-- A file that could be replaced at the start can be replaced, and is as it was or has got what was
due. -/
theorem ready (reached : Reached device start candidates now)
    (work : Workload device start candidates) {c : Candidate} (member : c ∈ candidates)
    {goal : Location} {old : Bytes} {mode : Nat} (ready : Ready device start c.path goal old mode) :
    ∃ content bits, Ready device now c.path goal content bits ∧
      ((content = old ∧ bits = mode) ∨ Due device start c goal (.file content bits)) := by
  have found := reached.resolve_iff.mpr ready.found
  have clear := reached.isOk_lookAtLink ready.clear
  rcases reached.entries goal with same | ⟨d, other, new, due, there⟩
  · exact ⟨old, mode, ⟨found, same.trans ready.file, clear, ready.removable⟩, .inl ⟨rfl, rfl⟩⟩
  · obtain rfl := work.single c member d other goal ready.found due.found
    cases due with
    | rewrite found' file readable rebuilt free =>
      exact ⟨_, _, ⟨found, there, clear, ready.removable⟩,
        .inr (.rewrite found' file readable rebuilt free)⟩

end Reached

end LicenseHeader
