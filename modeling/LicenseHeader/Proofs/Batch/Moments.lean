import LicenseHeader.Proofs.Batch.Replacement

/-!
# What a reader finds while a file is replaced

A replacement can be stopped between any two steps, or fail at any of them, and whoever looks at
the file then finds it as it was or as it is to be. Before the staging file is renamed nothing but
that file has changed (`Replaceable.holds_of_pending`), and removing it leaves the file alone as
well. `Replacement.history` says of each of the `Replacement.moments` whether the staging file has
been renamed, and `holds_of_history` that this is when the content changes.
-/

namespace LicenseHeader

open FileSystem

/-- Whether a path names a regular file with the given permission bits in which exactly the given
content is read. -/
structure FileSystem.Holds (files : FileSystem) (path : Path) (content : Bytes) (mode : Nat) :
    Prop where
  /-- The file is at the path itself, not at the end of a link. -/
  file : files.lookAtLink path = .ok (.file content mode)
  /-- What is read is its content. -/
  read : files.read path = .ok content

namespace FileSystem

variable {files : FileSystem} {path : Path} {content : Bytes} {mode : Nat}

/-- A path that names a regular file holds its content. -/
theorem holds_of_lookAtLink (found : files.lookAtLink path = .ok (.file content mode)) :
    files.Holds path content mode := by
  obtain ⟨goal, kept, there⟩ := lookAtLink_eq_ok_iff.mp found
  refine ⟨found, ?_⟩
  unfold FileSystem.read
  rw [lookAt_of_resolve kept there]
  rfl

/-- A path holds one content. -/
theorem Holds.content_eq {other : Bytes} {bits : Nat} (held : files.Holds path content mode)
    (also : files.Holds path other bits) : content = other :=
  Except.ok.inj (held.read.symm.trans also.read)

end FileSystem

namespace Replacement

/-- A state that the files go through while a file is replaced. -/
structure Moment where
  /-- The files. -/
  files : FileSystem
  /-- Whether the staging file has been renamed over the file. -/
  renamed : Bool

section History

variable (device : Device) (files : FileSystem) (path : Path) (content : Bytes)

/-- The files before renaming, with the staging file written and its permission bits set as far as
this succeeds. -/
def settled : Attempt :=
  (stage device files (stagingPath path) content).andThen
    (settle device (stagingPath path) (modeAt files path))

/-- Whether the staging file is renamed over the file: every step before succeeds, and so does
this. -/
def isRenamed : Bool :=
  let before := settled device files path content
  before.fault.isNone && (device.rename (stagingPath path)).isNone &&
    (before.files.rename (stagingPath path) path).isOk

/-- The states that the files go through, each with whether the staging file has been renamed. -/
def history : List Moment :=
  let renamed := isRenamed device files path content
  (files :: drafts device files (stagingPath path) content ++ [(settled device files path content).files]).map
      (⟨·, false⟩) ++
    [⟨(attempt device files path content).files, renamed⟩,
      ⟨(replace device files path content).files, renamed⟩]

/-- The states of the history are the moments of the replacement. -/
theorem files_history :
    (history device files path content).map Moment.files = moments device files path content := by
  have early (states : List FileSystem) :
      (states.map (⟨·, false⟩ : FileSystem → Moment)).map Moment.files = states := by
    rw [List.map_map]
    exact List.map_id _
  unfold history
  rw [List.map_append, early, List.append_assoc]
  rfl

/-- The staging file has been renamed exactly when all steps up to renaming have succeeded. -/
theorem isRenamed_eq :
    isRenamed device files path content = (attempt device files path content).fault.isNone := by
  unfold isRenamed attempt
  dsimp only
  change _ = ((settled device files path content).andThen _).fault.isNone
  generalize settled device files path content = before
  unfold Attempt.andThen swap
  cases fault : before.fault with
  | some why => simp [fault]
  | none =>
    cases device.rename (stagingPath path) with
    | some why => simp
    | none =>
      cases before.files.rename (stagingPath path) path <;> simp [Attempt.ofResult, Except.isOk,
        Except.toBool]

/-- A replacement succeeds exactly when the staging file has been renamed. -/
theorem replace_succeeds_iff : (replace device files path content).fault = none ↔
    isRenamed device files path content = true := by
  rw [isRenamed_eq]
  unfold replace
  cases why : (attempt device files path content).fault with
  | none => simp [why]
  | some fault => simp [why]

end History

/-- Whether the files are as they were, but for a staging file that may have been made. -/
inductive Pending (files : FileSystem) (path : Path) : FileSystem → Prop where
  /-- No staging file has been made. -/
  | untouched : Pending files path files
  /-- A staging file has been made, and nothing else has changed. -/
  | drafted {after : FileSystem} {place : Location} {content : Bytes} {bits : Nat}
      (made : files.resolve .created (stagingPath path) = .ok place)
      (changed : files.ChangedAt after place (.file content bits)) : Pending files path after

section Held

variable {device : Device} {files after : FileSystem} {path : Path} {goal place : Location}
  {old content : Bytes} {mode bits : Nat}

/-- A file can be replaced when it is a regular one and no staging file is there. -/
theorem exists_replaceable (clear : (files.lookAtLink (stagingPath path)).isOk = false)
    (regular : files.lookAtLink path = .ok (.file old mode)) :
    ∃ goal, Replaceable files path goal old mode := by
  obtain ⟨goal, kept, there⟩ := lookAtLink_eq_ok_iff.mp regular
  exact ⟨goal, replaceable_of_clear kept there clear⟩

/-- What is at the location of the file is found at its path when at most the staging file and the
file itself are other ones. -/
theorem Replaceable.holds_of_touched (able : Replaceable files path goal old mode)
    (made : files.resolve .created (stagingPath path) = .ok place) {left : Option Entry}
    (touched : files.Touched after goal place (some (.file content bits)) left)
    (file : ∀ entry ∈ left, entry.isFile = true) : after.Holds path content bits := by
  obtain ⟨-, leaf, -⟩ := able.leaf made
  have same := touched.resembles (FileTree.isLeaf_of_file able.file) leaf
    (fun entry member => by obtain rfl := Option.some.inj member; rfl) file
  have there := touched.entries goal
  rw [if_pos rfl] at there
  have found := same.resolve_iff.mpr able.found
  exact holds_of_lookAtLink (lookAtLink_eq_ok_iff.mpr ⟨goal, found, there⟩)

/-- The file is as it was while only a staging file has been made. -/
theorem Replaceable.holds_of_pending (able : Replaceable files path goal old mode)
    (pending : Pending files path after) : after.Holds path old mode := by
  cases pending with
  | untouched =>
    exact holds_of_lookAtLink (lookAtLink_eq_ok_iff.mpr ⟨goal, able.found, able.file⟩)
  | drafted made changed =>
    obtain ⟨-, -, apart⟩ := able.leaf made
    have touched := changed.touched apart
    rw [able.file] at touched
    exact able.holds_of_touched made touched fun entry member => by
      obtain rfl := Option.some.inj member
      rfl

/-- Writing any part of the content makes nothing but the staging file. -/
theorem pending_of_drafts (member : after ∈ drafts device files (stagingPath path) content) :
    Pending files path after := by
  unfold drafts at member
  split at member
  · contradiction
  obtain ⟨part, -, written⟩ := List.mem_filterMap.mp member
  have done : files.write (stagingPath path) (content.take part) = .ok after := by
    cases result : files.write (stagingPath path) (content.take part) with
    | ok made => rw [result] at written; exact congrArg _ (Option.some.inj written)
    | error fault => rw [result] at written; contradiction
  obtain ⟨place, former, bits, made, -, changed⟩ := alter_eq_ok done
  exact .drafted made changed

/-- All steps before renaming change nothing but the staging file, whichever of them fails. -/
theorem Replaceable.pending_settled (able : Replaceable files path goal old mode)
    (device : Device) (content : Bytes) :
    Pending files path (settled device files path content).files := by
  unfold settled
  have staged := staged_stage device files (stagingPath path) content
  generalize stage device files (stagingPath path) content = first at staged ⊢
  cases staged with
  | refused fault unmade => exact .untouched
  | @drafted place opens made leaf =>
    have below : place ≠ [] := leaf.ne_root
    have drafted := changedAt_put files
      (.file (device.portion (stagingPath path) content) (bitsOf (files.tree.get? place))) below
    rw [able.modeAt_eq]
    unfold Attempt.andThen settle
    cases device.write (stagingPath path) with
    | some limit => exact .drafted made drafted
    | none =>
      cases device.setMode (stagingPath path) with
      | some fault => exact .drafted made drafted
      | none =>
        simp only [Option.map_none, setMode_of_leaf made leaf drafted]
        exact .drafted made (drafted.put _ below)

/-- The file is as it is to be when the staging file has been renamed, and as it was otherwise. -/
theorem Replaceable.holds_attempt (able : Replaceable files path goal old mode)
    (device : Device) (content : Bytes) :
    (attempt device files path content).files.Holds path
      (if isRenamed device files path content then content else old) mode := by
  have ends := able.ends_attempt device content
  rw [isRenamed_eq]
  generalize isObstructed device files path = blocked at ends
  generalize attempt device files path content = tried at ends ⊢
  cases ends with
  | done made touched => exact able.holds_of_touched made touched (by simp)
  | refused fault unmade => exact able.holds_of_pending .untouched
  | dropped fault made touched =>
    rw [able.file] at touched
    exact able.holds_of_touched made touched (isFile_stalled (able.leaf made).2.1)

/-- Whether or not the staging file could be removed after a step failed, the file is as it was. -/
theorem Replaceable.holds_replace (able : Replaceable files path goal old mode)
    (device : Device) (content : Bytes) :
    (replace device files path content).files.Holds path
      (if isRenamed device files path content then content else old) mode := by
  have replaced := able.replaced device content
  have succeeds := replace_succeeds_iff device files path content
  generalize isRenamed device files path content = renamed at succeeds ⊢
  generalize isObstructed device files path = blocked at replaced
  generalize replace device files path content = done at replaced succeeds ⊢
  cases replaced with
  | done made touched =>
    rw [succeeds.mp rfl]
    exact able.holds_of_touched made touched (by simp)
  | refused fault unmade =>
    have stays : renamed = false := by simpa using succeeds
    rw [stays]
    exact able.holds_of_pending .untouched
  | dropped fault made touched =>
    have stays : renamed = false := by simpa using succeeds
    rw [stays]
    rw [able.file] at touched
    exact able.holds_of_touched made touched (isFile_leftover (able.leaf made).2.1)

/-- At every moment of its replacement the file is as it is to be if the staging file has been
renamed, and as it was otherwise. -/
theorem Replaceable.holds_history (able : Replaceable files path goal old mode)
    (device : Device) (content : Bytes) :
    ∀ moment ∈ history device files path content,
      moment.files.Holds path (if moment.renamed then content else old) mode := by
  intro moment member
  unfold history at member
  rcases List.mem_append.mp member with early | late
  · obtain ⟨reached, among, rfl⟩ := List.mem_map.mp early
    apply able.holds_of_pending
    rw [List.cons_append, List.mem_cons, List.mem_append, List.mem_singleton] at among
    rcases among with rfl | draft | rfl
    · exact .untouched
    · exact pending_of_drafts draft
    · exact able.pending_settled device content
  · rw [List.mem_cons, List.mem_singleton] at late
    rcases late with rfl | rfl
    · exact able.holds_attempt device content
    · exact able.holds_replace device content

/-- The staging file has been renamed at no moment unless it is renamed at all. -/
theorem isRenamed_of_history {moment : Moment}
    (member : moment ∈ history device files path content) (moved : moment.renamed = true) :
    isRenamed device files path content = true := by
  unfold history at member
  rcases List.mem_append.mp member with early | late
  · obtain ⟨reached, -, rfl⟩ := List.mem_map.mp early
    contradiction
  · rw [List.mem_cons, List.mem_singleton] at late
    rcases late with rfl | rfl <;> exact moved

/-- What has been renamed stays so. -/
theorem pairwise_history (device : Device) (files : FileSystem) (path : Path) (content : Bytes) :
    (history device files path content).Pairwise
      fun earlier later => earlier.renamed = true → later.renamed = true := by
  unfold history
  refine List.pairwise_append.mpr ⟨?_, by simp, ?_⟩
  · exact List.pairwise_map.mpr (List.pairwise_of_forall fun _ _ moved => by contradiction)
  · intro earlier member later _ moved
    obtain ⟨reached, -, rfl⟩ := List.mem_map.mp member
    contradiction

end Held

/-- At every moment at which a replacement may be stopped, whichever of its steps the device fails,
a regular file beside which there is no staging file is exactly as it was or has exactly the new
content and the permission bits that it had, and it has the new content exactly when the staging
file has been renamed over it. This stays so once it has happened, and the replacement succeeds
exactly when it has. -/
theorem holds_of_history (device : Device) {files : FileSystem} {path : Path} {old new : Bytes}
    {mode : Nat} (clear : (files.lookAtLink (stagingPath path)).isOk = false)
    (regular : files.lookAtLink path = .ok (.file old mode)) (differs : new ≠ old) :
    (history device files path new).map Moment.files = moments device files path new ∧
      (∀ moment ∈ history device files path new,
        (moment.files.Holds path old mode ∨ moment.files.Holds path new mode) ∧
          (moment.files.Holds path new mode ↔ moment.renamed = true)) ∧
      ((history device files path new).Pairwise
        fun earlier later => earlier.renamed = true → later.renamed = true) ∧
      ((replace device files path new).fault = none ↔
        ∃ moment ∈ history device files path new, moment.renamed = true) := by
  obtain ⟨goal, able⟩ := exists_replaceable clear regular
  refine ⟨files_history device files path new, ?_, pairwise_history device files path new, ?_⟩
  · intro moment member
    have held := able.holds_history device new moment member
    cases moved : moment.renamed with
    | true =>
      simp only [moved, if_true] at held
      exact ⟨.inr held, fun _ => rfl, fun _ => held⟩
    | false =>
      simp only [moved, Bool.false_eq_true, if_false] at held
      have remains : ¬ moment.files.Holds path new mode := fun also =>
        differs (also.content_eq held)
      exact ⟨.inl held, fun also => absurd also remains, fun _ => by contradiction⟩
  · rw [replace_succeeds_iff]
    constructor
    · intro moved
      exact ⟨_, List.mem_append_right _ List.mem_cons_self, moved⟩
    · rintro ⟨moment, member, moved⟩
      exact isRenamed_of_history member moved

/-- A script that may be run, alone in its directory. -/
def runnableFiles : FileSystem where
  tree := ⟨[([Utf8.encode "run.py".toList], .file (Utf8.encode "print(1)\n".toList) 0o755)]⟩
  workingDirectory := []

/-- The content of a script that may be run is replaced, and at every moment it may be run and is
the old one or the new one. -/
theorem holds_of_history_runnable :
    (runnableFiles.lookAtLink (stagingPath (.ofString "run.py"))).isOk = false ∧
      runnableFiles.lookAtLink (.ofString "run.py") =
        .ok (.file (Utf8.encode "print(1)\n".toList) 0o755) ∧
      Utf8.encode "print(2)\n".toList ≠ Utf8.encode "print(1)\n".toList ∧
      let history := history .reliable runnableFiles (.ofString "run.py")
        (Utf8.encode "print(2)\n".toList)
      (∀ moment ∈ history,
        moment.files.Holds (.ofString "run.py") (Utf8.encode "print(1)\n".toList) 0o755 ∨
          moment.files.Holds (.ofString "run.py") (Utf8.encode "print(2)\n".toList) 0o755) ∧
      ∃ moment ∈ history,
        moment.files.Holds (.ofString "run.py") (Utf8.encode "print(2)\n".toList) 0o755 := by
  have clear : (runnableFiles.lookAtLink (stagingPath (.ofString "run.py"))).isOk = false := by
    cbv
  have regular : runnableFiles.lookAtLink (.ofString "run.py") =
      .ok (.file (Utf8.encode "print(1)\n".toList) 0o755) := by
    cbv
  have differs : Utf8.encode "print(2)\n".toList ≠ Utf8.encode "print(1)\n".toList := by
    decide
  have done : (replace .reliable runnableFiles (.ofString "run.py")
      (Utf8.encode "print(2)\n".toList)).fault = none := by
    cbv
  obtain ⟨-, held, -, succeeds⟩ := holds_of_history .reliable clear regular differs
  obtain ⟨moment, member, moved⟩ := succeeds.mp done
  exact ⟨clear, regular, differs, fun moment member => (held moment member).1,
    moment, member, (held moment member).2.mpr moved⟩

end Replacement

end LicenseHeader
