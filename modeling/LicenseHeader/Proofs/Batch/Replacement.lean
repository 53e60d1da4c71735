import LicenseHeader.Batch.Replacement
import LicenseHeader.Proofs.Batch.Staging
import LicenseHeader.Proofs.File.Device

/-!
# What replacing a file does

A replacement touches the location of the file and that of its staging file, and `Replaced` says
what they hold afterwards: the new content and nothing, unless something obstructs it
(`Replaceable.replaced`). `Replacement.isObstructed` says which it is without carrying it out. Where
no staging file was before, a replacement changes nothing but the file, and one that fails changes
nothing if the device removes the staging file (`Ready.changedAt_replace`, `Ready.agrees_replace`).
-/

namespace LicenseHeader.Replacement

open FileSystem

/-- Whether a path names a file that can be replaced safely: nothing is where its staging file goes,
and the device can remove that. -/
structure Ready (device : Device) (files : FileSystem) (path : Path) (goal : Location)
    (old : Bytes) (mode : Nat) : Prop where
  /-- The location that the path names. -/
  found : files.resolve .kept path = .ok goal
  /-- The file there. -/
  file : files.tree.get? goal = some (.file old mode)
  /-- No staging file is there. -/
  clear : (files.lookAtLink (stagingPath path)).isOk = false
  /-- The device removes staging files. -/
  removable : device.remove (stagingPath path) = none

/-- Whether a path names a file that can be replaced: where its staging file goes there is nothing,
or another file that was left there. -/
structure Replaceable (files : FileSystem) (path : Path) (goal : Location) (old : Bytes)
    (mode : Nat) : Prop where
  /-- The location that the path names. -/
  found : files.resolve .kept path = .ok goal
  /-- The file there. -/
  file : files.tree.get? goal = some (.file old mode)
  /-- Nothing but another file is where the staging file goes. -/
  loose : ∀ place, files.resolve .kept (stagingPath path) = .ok place →
    files.tree.IsLeaf place ∧ goal ≠ place

/-- Whether something keeps the file at a path from being replaced: the staging file cannot be made,
the device fails a step, or a path is none of an entry in a directory. -/
def isObstructed (device : Device) (files : FileSystem) (path : Path) : Bool :=
  let staging := stagingPath path
  !(files.resolve .created staging).isOk || (device.opening staging).isSome ||
    (device.write staging).isSome || (device.setMode staging).isSome ||
    (device.rename staging).isSome || (namesNoEntry staging || namesNoEntry path) ||
    endsWithSlash path

/-- A staging file can be made where nothing obstructs a replacement. -/
theorem isOk_of_free {device : Device} {files : FileSystem} {path : Path}
    (free : isObstructed device files path = false) :
    (files.resolve .created (stagingPath path)).isOk = true := by
  unfold isObstructed at free
  simp only [Bool.or_eq_false_iff, Bool.not_eq_false'] at free
  exact free.1.1.1.1.1.1

/-- The same obstructs a replacement where nothing but files differs. -/
theorem isObstructed_of_resembles {before after : FileSystem} (same : before.Resembles after)
    (device : Device) (path : Path) :
    isObstructed device after path = isObstructed device before path := by
  unfold isObstructed
  simp only [same.isOk_resolve]

/-- The permission bits of an entry, or those of a new file where there is none. -/
def bitsOf (entry : Option Entry) : Nat := (entry.map Entry.mode).getD Entry.fileMode

/-- The staging file when it is to be renamed or when a step before has failed. Its permission bits
are `bits` unless those of the file have been set. -/
def draft (device : Device) (staging : Path) (content : Bytes) (mode bits : Nat) : Entry :=
  .file (device.portion staging content)
    (if (device.write staging).isSome || (device.setMode staging).isSome then bits else mode)

/-- What is in the place of a staging file when a step has failed: what was there before, if it has
not been opened, and the staging file otherwise. -/
def stalled (device : Device) (staging : Path) (content : Bytes) (mode : Nat)
    (former : Option Entry) : Option Entry :=
  if (device.opening staging).isSome then former
  else some (draft device staging content mode (bitsOf former))

/-- What is left in the place of a staging file when the file could not be replaced. -/
def leftover (device : Device) (staging : Path) (content : Bytes) (mode : Nat)
    (former : Option Entry) : Option Entry :=
  if (device.remove staging).isSome then stalled device staging content mode former else none

/-- At most a file is in the place of a staging file when a step has failed. -/
theorem isFile_stalled {device : Device} {staging : Path} {content : Bytes} {mode : Nat}
    {former : Option Entry} (file : ∀ entry ∈ former, entry.isFile = true) :
    ∀ entry ∈ stalled device staging content mode former, entry.isFile = true := by
  intro entry member
  unfold stalled at member
  split at member
  · exact file entry member
  · obtain rfl := Option.some.inj member
    rfl

/-- At most a file is left in the place of a staging file. -/
theorem isFile_leftover {device : Device} {staging : Path} {content : Bytes} {mode : Nat}
    {former : Option Entry} (file : ∀ entry ∈ former, entry.isFile = true) :
    ∀ entry ∈ leftover device staging content mode former, entry.isFile = true := by
  intro entry member
  unfold leftover at member
  split at member
  · exact isFile_stalled file entry member
  · contradiction

/-- How making a staging file ends: nothing has changed, or as much of the content as the device
writes is in it. -/
inductive Staged (device : Device) (files : FileSystem) (staging : Path) (content : Bytes) :
    Attempt → Prop where
  /-- The staging file could not be made or opened. -/
  | refused (fault : IoFault) (unmade : device.opening staging = none → ∀ place,
      files.resolve .created staging = .ok place → ¬ files.tree.IsLeaf place) :
      Staged device files staging content ⟨files, some fault⟩
  /-- The staging file was made, or another file was taken for it. -/
  | drafted {place : Location} (opens : device.opening staging = none)
      (made : files.resolve .created staging = .ok place) (leaf : files.tree.IsLeaf place) :
      Staged device files staging content
        ⟨files.put place (.file (device.portion staging content)
            (bitsOf (files.tree.get? place))), (device.write staging).map (·.2)⟩

/-- A file is written where there is nothing but a file, and keeps its permission bits. -/
theorem write_of_leaf {files : FileSystem} {path : Path} {place : Location}
    (made : files.resolve .created path = .ok place) (leaf : files.tree.IsLeaf place)
    (content : Bytes) : files.write path content =
      .ok (files.put place (.file content (bitsOf (files.tree.get? place)))) := by
  unfold FileSystem.write FileSystem.alter bitsOf
  rw [made]
  simp only [bind, Except.bind]
  cases there : files.tree.get? place with
  | none => rfl
  | some entry =>
    have file := leaf entry there
    cases entry with
    | file content bits => rfl
    | directory => contradiction
    | link target => contradiction

/-- Making a staging file ends in one of these ways. -/
theorem staged_stage (device : Device) (files : FileSystem) (staging : Path) (content : Bytes) :
    Staged device files staging content (stage device files staging content) := by
  unfold stage
  cases opens : device.opening staging with
  | some fault =>
    rw [writeTo_of_opening opens]
    exact .refused fault fun opened => by rw [opens] at opened; contradiction
  | none =>
    cases written : files.write staging (device.portion staging content) with
    | error fault =>
      rw [writeTo_of_error opens written]
      refine .refused fault fun _ place made leaf => ?_
      rw [write_of_leaf made leaf] at written
      contradiction
    | ok after =>
      obtain ⟨place, old, mode, made, origin, -⟩ := alter_eq_ok written
      have leaf : files.tree.IsLeaf place := by
        rcases origin with file | ⟨absent, -, -⟩
        · exact FileTree.isLeaf_of_file file
        · exact FileTree.isLeaf_of_absent absent
      rw [writeTo_of_write opens (write_of_leaf made leaf _)]
      exact .drafted opens made leaf

section Draft

variable {device : Device} {files : FileSystem} {path : Path} {goal place : Location}
  {old : Bytes} {mode : Nat}

/-- Nothing is where the staging file goes when nothing is found there. -/
theorem absent_of_clear (clear : (files.lookAtLink (stagingPath path)).isOk = false)
    (kept : files.resolve .kept (stagingPath path) = .ok place) :
    files.tree.get? place = none := by
  cases there : files.tree.get? place with
  | none => rfl
  | some entry =>
    rw [lookAtLink_eq_ok_iff.mpr ⟨place, kept, there⟩] at clear
    contradiction

/-- A file can be replaced when nothing is found where its staging file goes. -/
theorem replaceable_of_clear (found : files.resolve .kept path = .ok goal)
    (file : files.tree.get? goal = some (.file old mode))
    (clear : (files.lookAtLink (stagingPath path)).isOk = false) :
    Replaceable files path goal old mode where
  found := found
  file := file
  loose place kept := by
    have absent := absent_of_clear clear kept
    refine ⟨FileTree.isLeaf_of_absent absent, ?_⟩
    rintro rfl
    rw [file] at absent
    contradiction

/-- A file can be replaced when this is safe. -/
theorem Ready.replaceable (ready : Ready device files path goal old mode) :
    Replaceable files path goal old mode :=
  replaceable_of_clear ready.found ready.file ready.clear

/-- A staging file is made where there is nothing but another file. -/
theorem Replaceable.leaf (able : Replaceable files path goal old mode)
    (made : files.resolve .created (stagingPath path) = .ok place) :
    files.resolve .kept (stagingPath path) = .ok place ∧ files.tree.IsLeaf place ∧
      goal ≠ place := by
  rcases resolve_kept made with kept | ⟨other, target, kept, there⟩
  · exact ⟨kept, able.loose place kept⟩
  · have file := (able.loose other kept).1 (.link target) there
    contradiction

/-- Once a staging file is made, every path still names its location. -/
theorem Replaceable.resolve_draft (able : Replaceable files path goal old mode)
    (made : files.resolve .created (stagingPath path) = .ok place) {after : FileSystem}
    {content : Bytes} {bits : Nat} (drafted : files.ChangedAt after place (.file content bits))
    {last : LastName} {other : Path} {there : Location}
    (found : files.resolve last other = .ok there) : after.resolve last other = .ok there := by
  obtain ⟨-, leaf, -⟩ := able.leaf made
  exact resolve_of_alike (drafted.alike leaf) drafted.workingDirectory found

/-- The permission bits of a staging file are set. -/
theorem setMode_of_leaf (made : files.resolve .created (stagingPath path) = .ok place)
    (leaf : files.tree.IsLeaf place) {after : FileSystem} {content : Bytes} {bits : Nat}
    (drafted : files.ChangedAt after place (.file content bits)) (mode : Nat) :
    after.setMode (stagingPath path) mode = .ok (after.put place (.file content mode)) := by
  have followed := resolve_of_alike (drafted.alike leaf) drafted.workingDirectory
    (resolve_of_created made)
  unfold FileSystem.setMode
  rw [followed]
  simp only [bind, Except.bind, drafted.there]
  rfl

/-- A staging file is moved over the file if both paths are of entries in directories. -/
theorem Replaceable.rename_draft (able : Replaceable files path goal old mode)
    (made : files.resolve .created (stagingPath path) = .ok place) {after : FileSystem}
    {content : Bytes} {bits : Nat} (drafted : files.ChangedAt after place (.file content bits)) :
    after.rename (stagingPath path) path =
      if namesNoEntry (stagingPath path) || namesNoEntry path then .error .busy
      else if endsWithSlash path then .error .notDirectory
      else .ok { after with tree := (after.tree.erase place).set goal (.file content bits) } := by
  obtain ⟨kept, -, apart⟩ := able.leaf made
  have source := able.resolve_draft made drafted kept
  have target := able.resolve_draft made drafted able.found
  have file : after.tree.get? goal = some (.file old mode) := by
    rw [drafted.entries, if_neg apart, able.file]
  unfold FileSystem.rename
  rw [source, target]
  simp only [bind, Except.bind, drafted.there, file]
  cases namesNoEntry (stagingPath path) || namesNoEntry path with
  | true => rfl
  | false =>
    cases endsWithSlash path with
    | true => rfl
    | false => rfl

/-- What is in the place of the staging file is removed if the device can do so. -/
theorem Replaceable.touched_cleanUp (able : Replaceable files path goal old mode)
    (made : files.resolve .created (stagingPath path) = .ok place) {after : FileSystem}
    {left : Option Entry} (file : ∀ entry ∈ left, entry.isFile = true)
    (touched : files.Touched after goal place (files.tree.get? goal) left) :
    files.Touched (cleanUp device (stagingPath path) after) goal place (files.tree.get? goal)
      (if (device.remove (stagingPath path)).isSome then left else none) := by
  obtain ⟨kept, leaf, apart⟩ := able.leaf made
  have aim := FileTree.isLeaf_of_file able.file
  have found := (touched.resembles aim leaf aim file).resolve_iff.mpr kept
  have there := touched.entries place
  rw [if_neg apart.symm, if_pos rfl] at there
  unfold cleanUp
  cases device.remove (stagingPath path) with
  | some fault => exact touched
  | none =>
    cases left with
    | none =>
      have gone : (after.remove (stagingPath path)).toOption = none := by
        apply remove_of_vacant
        intro entry present
        obtain ⟨other, also, here⟩ := lookAtLink_eq_ok_iff.mp present
        obtain rfl : place = other := Except.ok.inj (found.symm.trans also)
        rw [there] at here
        contradiction
      rw [gone]
      exact touched
    | some entry =>
      have solid : entry ≠ .directory := by
        rintro rfl
        exact absurd (file .directory rfl) (by decide)
      rw [remove_of_present found there solid]
      exact touched.removed leaf.ne_root apart

/-- Where no staging file can be made none is removed. -/
theorem Replaceable.cleanUp_eq (able : Replaceable files path goal old mode)
    (unmade : (files.resolve .created (stagingPath path)).isOk = false) :
    cleanUp device (stagingPath path) files = files := by
  have gone : (files.remove (stagingPath path)).toOption = none := by
    apply remove_of_vacant
    intro entry present
    obtain ⟨place, kept, there⟩ := lookAtLink_eq_ok_iff.mp present
    have solid (target : Path) : files.tree.get? place ≠ some (.link target) := by
      intro link
      have file := (able.loose place kept).1 (.link target) link
      contradiction
    rw [made_of_kept kept solid] at unmade
    contradiction
  unfold cleanUp
  rw [gone]
  cases device.remove (stagingPath path) with
  | none => rfl
  | some fault => rfl

/-- The permission bits of the file are known. -/
theorem Replaceable.modeAt_eq (able : Replaceable files path goal old mode) :
    modeAt files path = some mode := by
  unfold modeAt
  rw [lookAt_of_resolve able.found able.file]
  rfl

end Draft

section Replaced

variable {files : FileSystem} {path : Path} {goal : Location} {old : Bytes} {mode : Nat}

/-- How the steps up to renaming end: all are done, or one failed and at most a staging file is
there. -/
inductive Ends (device : Device) (files : FileSystem) (path : Path) (goal : Location)
    (content : Bytes) (mode : Nat) : Bool → Attempt → Prop where
  /-- All steps are done. -/
  | done {after : FileSystem} {place : Location}
      (made : files.resolve .created (stagingPath path) = .ok place)
      (touched : files.Touched after goal place (some (.file content mode)) none) :
      Ends device files path goal content mode false ⟨after, none⟩
  /-- The staging file could not be made. -/
  | refused (fault : IoFault) (unmade : (files.resolve .created (stagingPath path)).isOk = false) :
      Ends device files path goal content mode true ⟨files, some fault⟩
  /-- A step failed where the staging file could be made. -/
  | dropped {after : FileSystem} {place : Location} (fault : IoFault)
      (made : files.resolve .created (stagingPath path) = .ok place)
      (touched : files.Touched after goal place (files.tree.get? goal)
        (stalled device (stagingPath path) content mode (files.tree.get? place))) :
      Ends device files path goal content mode true ⟨after, some fault⟩

/-- The steps up to renaming are done unless something obstructs them. -/
theorem Replaceable.ends_attempt (able : Replaceable files path goal old mode) (device : Device)
    (content : Bytes) :
    Ends device files path goal content mode (isObstructed device files path)
      (attempt device files path content) := by
  unfold isObstructed attempt
  dsimp only
  have staged := staged_stage device files (stagingPath path) content
  generalize stage device files (stagingPath path) content = first at staged ⊢
  cases staged with
  | refused fault unmade =>
    cases made : files.resolve .created (stagingPath path) with
    | error other => exact .refused fault (by rw [made]; rfl)
    | ok place =>
      cases opens : device.opening (stagingPath path) with
      | none => exact absurd (able.leaf made).2.1 (unmade opens place made)
      | some other =>
        refine .dropped fault made ?_
        unfold stalled
        rw [opens]
        exact touched_refl files goal place
  | @drafted place opens made leaf =>
    obtain ⟨-, -, apart⟩ := able.leaf made
    have below : place ≠ [] := leaf.ne_root
    have drafted := changedAt_put files
      (.file (device.portion (stagingPath path) content) (bitsOf (files.tree.get? place))) below
    have dropped {after : FileSystem} {bits : Nat} (fault : IoFault)
        (same : bits = if (device.write (stagingPath path)).isSome ||
          (device.setMode (stagingPath path)).isSome then bitsOf (files.tree.get? place) else mode)
        (drafted : files.ChangedAt after place
          (.file (device.portion (stagingPath path) content) bits)) :
        Ends device files path goal content mode true ⟨after, some fault⟩ := by
      refine .dropped fault made ?_
      unfold stalled draft
      rw [opens, ← same]
      exact drafted.touched apart
    rw [opens, made, able.modeAt_eq]
    cases stops : device.write (stagingPath path) with
    | some limit => exact dropped limit.2 (by rw [stops]; rfl) drafted
    | none =>
      unfold Attempt.andThen settle
      simp only [Option.map_none]
      cases halts : device.setMode (stagingPath path) with
      | some fault => exact dropped fault (by rw [stops, halts]; rfl) drafted
      | none =>
        have settled := drafted.put
          (.file (device.portion (stagingPath path) content) mode) below
        have whole : device.portion (stagingPath path) content = content := by
          unfold Device.portion
          rw [stops]
        have late (fault : IoFault) := dropped fault (by rw [stops, halts]; rfl) settled
        rw [setMode_of_leaf made leaf drafted]
        unfold Attempt.ofResult swap
        cases device.rename (stagingPath path) with
        | some fault => exact late fault
        | none =>
          simp only [able.rename_draft made settled]
          cases namesNoEntry (stagingPath path) || namesNoEntry path with
          | true => exact late _
          | false =>
            cases endsWithSlash path with
            | true => exact late _
            | false =>
              have inside : goal ≠ [] := FileTree.ne_root (by rw [able.file]; simp)
              rw [whole] at settled ⊢
              exact .done made (settled.moved below inside)

/-- What a replacement has done, depending on whether something obstructs it. -/
inductive Replaced (device : Device) (files : FileSystem) (path : Path) (goal : Location)
    (content : Bytes) (mode : Nat) : Bool → Attempt → Prop where
  /-- The file has the new content, and no staging file is left. -/
  | done {after : FileSystem} {place : Location}
      (made : files.resolve .created (stagingPath path) = .ok place)
      (touched : files.Touched after goal place (some (.file content mode)) none) :
      Replaced device files path goal content mode false ⟨after, none⟩
  /-- The staging file could not be made. -/
  | refused (fault : IoFault) (unmade : (files.resolve .created (stagingPath path)).isOk = false) :
      Replaced device files path goal content mode true ⟨files, some fault⟩
  /-- A step failed where the staging file could be made, and what was in its place has been removed,
  unless the device fails this too. -/
  | dropped {after : FileSystem} {place : Location} (fault : IoFault)
      (made : files.resolve .created (stagingPath path) = .ok place)
      (touched : files.Touched after goal place (files.tree.get? goal)
        (leftover device (stagingPath path) content mode (files.tree.get? place))) :
      Replaced device files path goal content mode true ⟨after, some fault⟩

/-- A replacement is done unless something obstructs it. -/
theorem Replaceable.replaced (able : Replaceable files path goal old mode) (device : Device)
    (content : Bytes) :
    Replaced device files path goal content mode (isObstructed device files path)
      (replace device files path content) := by
  have ends := able.ends_attempt device content
  unfold replace
  generalize isObstructed device files path = blocked at ends ⊢
  generalize attempt device files path content = tried at ends ⊢
  cases ends with
  | done made touched => exact .done made touched
  | refused fault unmade =>
    simp only [able.cleanUp_eq unmade]
    exact .refused fault unmade
  | dropped fault made touched =>
    have leaf := (able.leaf made).2.1
    exact .dropped fault made (able.touched_cleanUp made (isFile_stalled leaf) touched)

/-- A replacement that nothing obstructs puts the content in the file and changes nothing else. -/
theorem Ready.changedAt_replace {device : Device}
    (ready : Ready device files path goal old mode)
    (free : isObstructed device files path = false) (content : Bytes) :
    (replace device files path content).fault = none ∧
      files.ChangedAt (replace device files path content).files goal (.file content mode) := by
  have replaced := ready.replaceable.replaced device content
  rw [free] at replaced
  generalize replace device files path content = done at replaced ⊢
  cases replaced with
  | done made touched =>
    have kept := (ready.replaceable.leaf made).1
    exact ⟨rfl, touched.changedAt (absent_of_clear ready.clear kept)⟩

/-- A replacement that something obstructs fails and leaves all entries as they were. -/
theorem Ready.agrees_replace {device : Device}
    (ready : Ready device files path goal old mode)
    (blocked : isObstructed device files path = true) (content : Bytes) :
    (replace device files path content).fault ≠ none ∧
      files.Agrees (replace device files path content).files := by
  have replaced := ready.replaceable.replaced device content
  rw [blocked] at replaced
  generalize replace device files path content = done at replaced ⊢
  cases replaced with
  | refused fault unmade => exact ⟨fun none => by contradiction, .refl files⟩
  | dropped fault made touched =>
    have kept := (ready.replaceable.leaf made).1
    unfold leftover at touched
    rw [ready.removable] at touched
    exact ⟨fun none => by contradiction, touched.agrees (absent_of_clear ready.clear kept)⟩

end Replaced

end LicenseHeader.Replacement
