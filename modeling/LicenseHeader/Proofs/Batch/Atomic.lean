import LicenseHeader.Batch.Apply
import LicenseHeader.Proofs.Batch.Replacement

/-!
# What a replacement that fails leaves

The steps up to renaming fail before anything is written or leave a draft (`Halted`), and then
whatever is where the staging file goes is removed. `Replacement.IsUndone` says of the files before
whether they are restored by this. They are when nothing but a directory was where the staging file
goes, and a file or a link there is lost (`agrees_iff_isUndone`). On a device that does not remove it
they are when it was not opened either.
-/

namespace LicenseHeader

open FileSystem

namespace Replacement

variable {device : Device} {files after : FileSystem} {path : Path} {content : Bytes}
  {place : Location}

/-- A staging file that is not renamed stays as it is. -/
theorem swap_failed {staging : Path} (failed : (swap device staging path files).fault ≠ none) :
    (swap device staging path files).files = files := by
  unfold swap at failed ⊢
  cases stops : device.rename staging with
  | some fault => rfl
  | none =>
    rw [stops] at failed
    exact Attempt.ofResult_failed failed

/-- The staging file at a location when a step after its making has failed. It has the permission
bits of the file only if there is one and they have been set. -/
def halted (device : Device) (files : FileSystem) (path : Path) (content : Bytes)
    (place : Location) : Entry :=
  let bits := bitsOf (files.tree.get? place)
  draft device (stagingPath path) content ((modeAt files path).getD bits) bits

/-- How the files are left when a step up to renaming has failed. -/
inductive Halted (device : Device) (files : FileSystem) (path : Path) (content : Bytes) :
    FileSystem → Prop where
  /-- No staging file can be made or opened, and nothing has changed. -/
  | refused (unmade : device.opening (stagingPath path) = none → ∀ place,
      files.resolve .created (stagingPath path) = .ok place → ¬ files.tree.IsLeaf place) :
      Halted device files path content files
  /-- A staging file was made, or another file was taken for it. -/
  | drafted {after : FileSystem} {place : Location}
      (opens : device.opening (stagingPath path) = none)
      (made : files.resolve .created (stagingPath path) = .ok place)
      (leaf : files.tree.IsLeaf place)
      (changed : files.ChangedAt after place (halted device files path content place)) :
      Halted device files path content after

/-- When a step up to renaming fails, nothing has changed but the staging file. -/
theorem halted_attempt (failed : (attempt device files path content).fault ≠ none) :
    Halted device files path content (attempt device files path content).files := by
  unfold attempt at failed ⊢
  dsimp only at failed ⊢
  have staged := staged_stage device files (stagingPath path) content
  generalize stage device files (stagingPath path) content = first at staged failed ⊢
  cases staged with
  | refused fault unmade => exact .refused unmade
  | @drafted place opens made leaf =>
    have below : place ≠ [] := leaf.ne_root
    have drafted := changedAt_put files
      (.file (device.portion (stagingPath path) content) (bitsOf (files.tree.get? place))) below
    -- Each step that can stop leaves the same content, and the bits that were set before it.
    have stopped {bits : Nat} {after : FileSystem}
        (same : halted device files path content place =
          .file (device.portion (stagingPath path) content) bits)
        (changed : files.ChangedAt after place
          (.file (device.portion (stagingPath path) content) bits)) :
        Halted device files path content after :=
      .drafted opens made leaf (same ▸ changed)
    unfold Attempt.andThen settle at failed ⊢
    cases stops : device.write (stagingPath path) with
    | some limit => exact stopped (by simp [halted, draft, stops]) drafted
    | none =>
      simp only [stops, Option.map_none] at failed ⊢
      cases known : modeAt files path with
      | none =>
        simp only [known] at failed ⊢
        rw [swap_failed failed]
        exact stopped (by simp [halted, draft, known]) drafted
      | some mode =>
        cases halts : device.setMode (stagingPath path) with
        | some fault => exact stopped (by simp [halted, draft, halts]) drafted
        | none =>
          have set := setMode_of_leaf made leaf drafted mode
          have settled := drafted.put
            (.file (device.portion (stagingPath path) content) mode) below
          simp only [known, halts, set, Attempt.ofResult] at failed ⊢
          rw [swap_failed failed]
          exact stopped (by simp [halted, draft, known, stops, halts]) settled

/-- Whether a replacement that fails leaves everything as it was: nothing but a directory is where
the staging file goes, or, when this cannot be removed, it is not opened, or the file there is
already as it would be left. -/
def IsUndone (device : Device) (files : FileSystem) (path : Path) (content : Bytes) : Prop :=
  match device.remove (stagingPath path) with
  | none => ∀ entry, files.lookAtLink (stagingPath path) = .ok entry → entry = .directory
  | some _ => device.opening (stagingPath path) = none →
      ∀ place, files.resolve .created (stagingPath path) = .ok place →
        files.tree.IsLeaf place →
          files.tree.get? place = some (halted device files path content place)

/-- Every path names its location still when a step has failed. -/
theorem Halted.resolve (left : Halted device files path content after) {last : LastName}
    {other : Path} {goal : Location} (found : files.resolve last other = .ok goal) :
    after.resolve last other = .ok goal := by
  cases left with
  | refused => exact found
  | drafted opens made leaf changed =>
    exact resolve_of_alike (changed.alike leaf) changed.workingDirectory found

/-- What is no directory may be another file when a step has failed, and is no directory still. -/
theorem Halted.exists_entry (left : Halted device files path content after) {entry : Entry}
    (there : files.tree.get? place = some entry) (other : entry ≠ .directory) :
    ∃ now, after.tree.get? place = some now ∧ now ≠ .directory := by
  cases left with
  | refused => exact ⟨entry, there, other⟩
  | drafted opens made leaf changed =>
    have entries := changed.entries place
    split at entries
    · exact ⟨_, entries, by simp [halted, draft]⟩
    · exact ⟨entry, entries.trans there, other⟩

/-- Whatever was where the staging file goes is lost when a step fails, unless it was a
directory. -/
theorem Halted.lost (left : Halted device files path content after)
    (removes : device.remove (stagingPath path) = none) {entry : Entry}
    (present : files.lookAtLink (stagingPath path) = .ok entry) (other : entry ≠ .directory) :
    ¬ files.Agrees (cleanUp device (stagingPath path) after) := by
  obtain ⟨place, kept, there⟩ := lookAtLink_eq_ok_iff.mp present
  obtain ⟨now, here, solid⟩ := left.exists_entry there other
  have below : place ≠ [] :=
    FileTree.ne_root (there ▸ fun same => other (Option.some.inj same))
  have removed := remove_of_present (left.resolve kept) here solid
  intro agrees
  have entries := agrees.entries place
  unfold cleanUp at entries
  rw [removes, removed, there] at entries
  simp [Except.toOption, FileTree.get?_erase after.tree place below] at entries

/-- A staging file that was made where nothing was is removed when a step fails, and nothing else
is. -/
theorem Halted.restored (left : Halted device files path content after)
    (removes : device.remove (stagingPath path) = none)
    (vacant : ∀ entry, files.lookAtLink (stagingPath path) = .ok entry → entry = .directory) :
    files.Agrees (cleanUp device (stagingPath path) after) := by
  unfold cleanUp
  rw [removes]
  cases left with
  | refused =>
    rw [remove_of_vacant vacant]
    exact .refl files
  | @drafted _ place opens made leaf changed =>
    have kept : files.resolve .kept (stagingPath path) = .ok place := by
      rcases resolve_kept made with kept | ⟨other, target, kept, link⟩
      · exact kept
      · have directory := vacant _ (lookAtLink_eq_ok_iff.mpr ⟨other, kept, link⟩)
        contradiction
    have absent : files.tree.get? place = none := by
      cases there : files.tree.get? place with
      | none => rfl
      | some entry =>
        obtain rfl := vacant entry (lookAtLink_eq_ok_iff.mpr ⟨place, kept, there⟩)
        have file := leaf .directory there
        contradiction
    have removed := remove_of_present
      (Halted.drafted opens made leaf changed |>.resolve kept) changed.there (by simp [halted, draft])
    rw [removed]
    refine ⟨by rw [changed.rest]; rfl, fun other => ?_⟩
    have entries := FileTree.get?_erase after.tree other leaf.ne_root
    rw [changed.entries] at entries
    refine entries.trans ?_
    by_cases same : other = place
    · rw [if_pos same, same, absent]
    · rw [if_neg same, if_neg same]

/-- A staging file that cannot be removed stays when a step fails. -/
theorem Halted.stays_iff (left : Halted device files path content after) :
    files.Agrees after ↔ (device.opening (stagingPath path) = none →
      ∀ place, files.resolve .created (stagingPath path) = .ok place →
        files.tree.IsLeaf place →
          files.tree.get? place = some (halted device files path content place)) := by
  cases left with
  | refused unmade =>
    exact ⟨fun _ opens place made leaf => absurd leaf (unmade opens place made),
      fun _ => .refl files⟩
  | @drafted _ place opens made leaf changed =>
    constructor
    · intro agrees _ other found _
      obtain rfl : place = other := Except.ok.inj (made.symm.trans found)
      rw [← agrees.entries, changed.there]
    · intro already
      refine ⟨changed.rest, fun other => ?_⟩
      rw [changed.entries]
      by_cases same : other = place
      · rw [if_pos same, same, already opens place made leaf]
      · rw [if_neg same]

/-- A replacement that fails ends with what a step left, without what is where the staging file
goes. -/
theorem replace_failed (failed : (replace device files path content).fault ≠ none) :
    ∃ left, Halted device files path content left ∧
      (replace device files path content).files = cleanUp device (stagingPath path) left := by
  unfold replace at failed ⊢
  cases why : (attempt device files path content).fault with
  | none =>
    simp only [why, ne_eq, not_true_eq_false] at failed
  | some fault =>
    simp only [why]
    exact ⟨_, halted_attempt (by rw [why]; simp), rfl⟩

/-- A replacement that fails leaves the files as they were exactly when it is undone. -/
theorem agrees_replace_iff (failed : (replace device files path content).fault ≠ none) :
    files.Agrees (replace device files path content).files ↔
      IsUndone device files path content := by
  obtain ⟨after, left, cleaned⟩ := replace_failed failed
  rw [cleaned]
  unfold IsUndone
  cases removes : device.remove (stagingPath path) with
  | none =>
    constructor
    · intro agrees entry present
      by_cases directory : entry = .directory
      · exact directory
      · exact absurd agrees (left.lost removes present directory)
    · exact left.restored removes
  | some fault =>
    have kept : cleanUp device (stagingPath path) after = after := by
      unfold cleanUp
      rw [removes]
    rw [kept]
    exact left.stays_iff

/-- On a device that neither opens nor removes a staging file, a replacement leaves the files as they
were, whatever is where the staging file goes. -/
theorem files_replace_of_shut {shut stuck : IoFault}
    (closed : device.opening (stagingPath path) = some shut)
    (fixed : device.remove (stagingPath path) = some stuck) :
    (replace device files path content).files = files := by
  have stops : attempt device files path content = ⟨files, some shut⟩ := by
    unfold attempt stage
    dsimp only
    rw [writeTo_of_opening closed]
    rfl
  unfold replace cleanUp
  simp only [stops, fixed]

/-- A text that could not be put into a file leaves the files as they were exactly when this is
undone. -/
theorem agrees_replaceText_iff {text : Text} {error : ApplyError}
    (failed : (files.replaceText device path text).2 = .error error) :
    files.Agrees (files.replaceText device path text).1 ↔
      IsUndone device files path (Utf8.encode text) := by
  unfold replaceText at failed ⊢
  cases why : (replace device files path (Utf8.encode text)).fault with
  | none =>
    simp only [why] at failed
    contradiction
  | some fault =>
    simp only [why]
    exact agrees_replace_iff (by rw [why]; simp)

end Replacement

open Replacement

/-- A header is applied to a file whose text has another normal form by replacing the text. -/
theorem FileSystem.applyHeader_of_normalize {device : Device} {files : FileSystem} {path : Path}
    {style : Style} {text new : Text} (read : files.readText device path = .ok text)
    (made : normalize style text = some new) :
    files.applyHeader device path style = ((files.replaceText device path new).1,
      (files.replaceText device path new).2.map fun _ => true) := by
  unfold applyHeader
  rw [read]
  simp only [made]

/-- A text that could not be put into a file, or a header that could not be applied to one, leaves
the files as they were exactly when the replacement is undone. Nothing is replaced when a file
cannot be read as text. -/
theorem agrees_iff_isUndone (device : Device) (files : FileSystem) (path : Path) :
    (∀ text error, (files.replaceText device path text).2 = .error error →
      (files.Agrees (files.replaceText device path text).1 ↔
        IsUndone device files path (Utf8.encode text))) ∧
    ∀ style error, (files.applyHeader device path style).2 = .error error →
      (files.Agrees (files.applyHeader device path style).1 ↔
        ∀ text new, files.readText device path = .ok text → normalize style text = some new →
          IsUndone device files path (Utf8.encode new)) := by
  refine ⟨fun text error failed => agrees_replaceText_iff failed, ?_⟩
  intro style error failed
  cases read : files.readText device path with
  | error fault =>
    unfold applyHeader
    rw [read]
    exact ⟨fun _ text new readable => by contradiction, fun _ => .refl files⟩
  | ok text =>
    cases made : normalize style text with
    | none =>
      unfold applyHeader at failed
      simp only [read, made] at failed
      contradiction
    | some new =>
      rw [applyHeader_of_normalize read made] at failed ⊢
      have refused : (files.replaceText device path new).2 = .error error := by
        cases result : (files.replaceText device path new).2 with
        | error fault =>
          rw [result] at failed
          exact congrArg _ (Except.error.inj failed)
        | ok done =>
          rw [result] at failed
          contradiction
      dsimp only
      rw [agrees_replaceText_iff refused]
      constructor
      · intro undone other another same rebuilt
        obtain rfl := Except.ok.inj same
        obtain rfl := Option.some.inj (made.symm.trans rebuilt)
        exact undone
      · intro undone
        exact undone text new rfl made

/-- A file alone in its directory. -/
def loneFiles : FileSystem where
  tree := ⟨[([Utf8.encode "a.c".toList], .file (Utf8.encode "int x;\n".toList) 0o600)]⟩
  workingDirectory := []

/-- The device that renames nothing. -/
def Device.stuck : Device := { Device.reliable with rename := fun _ => some .busy }

/-- A file alone in its directory is as it was, and alone, when its staging file cannot be
renamed. -/
theorem agrees_iff_isUndone_lone :
    (loneFiles.replaceText .stuck (.ofString "a.c") "new".toList).2 =
        .error (.write (.ofString "a.c") .busy) ∧
      loneFiles.Agrees (loneFiles.replaceText .stuck (.ofString "a.c") "new".toList).1 ∧
      (loneFiles.applyHeader .stuck (.ofString "a.c") .block).2 =
        .error (.write (.ofString "a.c") .busy) ∧
      loneFiles.Agrees (loneFiles.applyHeader .stuck (.ofString "a.c") .block).1 := by
  have failed (text : Text) : (loneFiles.replaceText .stuck (.ofString "a.c") text).2 =
      .error (.write (.ofString "a.c") .busy) := by
    cbv
  have read : loneFiles.readText .stuck (.ofString "a.c") = .ok "int x;\n".toList := by
    cbv
  have made : normalize .block "int x;\n".toList =
      some (Style.block.header ++ "int x;\n".toList) := by
    decide +kernel
  have refused : (loneFiles.applyHeader .stuck (.ofString "a.c") .block).2 =
      .error (.write (.ofString "a.c") .busy) := by
    rw [applyHeader_of_normalize read made, failed]
    rfl
  have undone (content : Bytes) : IsUndone .stuck loneFiles (.ofString "a.c") content := by
    intro entry present
    have clear : loneFiles.lookAtLink (stagingPath (.ofString "a.c")) = .error .noEntry := by
      cbv
    rw [clear] at present
    cases present
  obtain ⟨replaced, applied⟩ := agrees_iff_isUndone .stuck loneFiles (.ofString "a.c")
  exact ⟨failed _, (replaced _ _ (failed _)).mpr (undone _), refused,
    (applied _ _ refused).mpr fun _ _ _ _ => undone _⟩

/-- A file and, where its staging file goes, a link to a directory. -/
def strayLinkFiles : FileSystem where
  tree := ⟨[([Utf8.encode "a.c".toList], .file (Utf8.encode "int x;\n".toList) 0o644),
    ([Utf8.encode "sub".toList], .directory),
    ([Utf8.encode "a.c.hdrsync-tmp".toList], .link (.ofString "sub"))]⟩
  workingDirectory := []

/-- Where a link to a directory stands in the place of a staging file, no header is applied, and the
link is gone. -/
theorem applyHeader_strayLink :
    (strayLinkFiles.applyHeader .reliable (.ofString "a.c") .block).2 =
        .error (.write (.ofString "a.c") .isDirectory) ∧
      strayLinkFiles.tree.get? [Utf8.encode "a.c.hdrsync-tmp".toList] =
        some (.link (.ofString "sub")) ∧
      (strayLinkFiles.applyHeader .reliable (.ofString "a.c") .block).1.tree.get?
        [Utf8.encode "a.c.hdrsync-tmp".toList] = none := by
  have read : strayLinkFiles.readText .reliable (.ofString "a.c") = .ok "int x;\n".toList := by
    cbv
  have made : normalize .block "int x;\n".toList =
      some (Style.block.header ++ "int x;\n".toList) := by
    decide +kernel
  have failed (text : Text) : (strayLinkFiles.replaceText .reliable (.ofString "a.c") text).2 =
      .error (.write (.ofString "a.c") .isDirectory) := by
    cbv
  have gone (text : Text) :
      (strayLinkFiles.replaceText .reliable (.ofString "a.c") text).1.tree.get?
        [Utf8.encode "a.c.hdrsync-tmp".toList] = none := by
    cbv
  rw [applyHeader_of_normalize read made]
  refine ⟨?_, by cbv, gone _⟩
  rw [failed]
  rfl

end LicenseHeader
