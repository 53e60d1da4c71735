import LicenseHeader.Batch.Apply
import LicenseHeader.Proofs.Batch.Staging
import LicenseHeader.Proofs.File.Device

/-!
# What a replacement leaves alone

`Replacement.replace_done` lists the steps of a replacement that succeeds. `Framed` says that it has
changed nothing but the file: that is so exactly when nothing was where the staging file goes
(`framed_iff_clear`). Whatever is there is written to, also through a symbolic link, and gone
afterwards.
-/

namespace LicenseHeader

open Replacement

namespace Replacement

variable {device : Device} {files : FileSystem} {path : Path} {content : Bytes}

/-- Permission bits are set without a fault, or there are none to set. -/
theorem settle_done {staging : Path} {mode : Option Nat}
    (done : (settle device staging mode files).fault = none) :
    (settle device staging mode files).files = files ∨
      ∃ bits, files.setMode staging bits = .ok (settle device staging mode files).files := by
  unfold settle at done ⊢
  cases mode with
  | none => exact .inl rfl
  | some bits =>
    cases stops : device.setMode staging with
    | none =>
      simp only [stops] at done
      exact .inr ⟨bits, Attempt.ofResult_done done⟩
    | some fault =>
      simp only [stops] at done
      contradiction

/-- A staging file is renamed without a fault. -/
theorem swap_done {staging : Path} (done : (swap device staging path files).fault = none) :
    files.rename staging path = .ok (swap device staging path files).files := by
  unfold swap at done ⊢
  cases stops : device.rename staging with
  | none =>
    rw [stops] at done
    exact Attempt.ofResult_done done
  | some fault =>
    simp only [stops] at done
    contradiction

/-- A replacement that succeeds has written the staging file, has set its permission bits if there
were any to set, and has renamed it. -/
theorem replace_done (done : (replace device files path content).fault = none) :
    ∃ written settled, files.write (stagingPath path) content = .ok written ∧
      (settled = written ∨ ∃ mode, written.setMode (stagingPath path) mode = .ok settled) ∧
      settled.rename (stagingPath path) path = .ok (replace device files path content).files := by
  have whole : replace device files path content = attempt device files path content := by
    unfold replace at done ⊢
    cases why : (attempt device files path content).fault with
    | none => simp only [why]
    | some fault =>
      simp only [why] at done
      contradiction
  rw [whole] at done ⊢
  unfold attempt at done ⊢
  obtain ⟨ready, last⟩ := Attempt.andThen_done done
  obtain ⟨staged, middle⟩ := Attempt.andThen_done ready
  rw [last] at done ⊢
  rw [middle] at ready done ⊢
  exact ⟨_, _, FileSystem.writeTo_done staged, settle_done ready, swap_done done⟩

/-- Up to renaming nothing but a file is touched. -/
theorem alike_of_steps {written settled : FileSystem} {staging : Path}
    (wrote : files.write staging content = .ok written)
    (set : settled = written ∨ ∃ mode, written.setMode staging mode = .ok settled) :
    files.tree.Alike settled.tree ∧ settled.workingDirectory = files.workingDirectory := by
  obtain ⟨first, place⟩ := FileSystem.alike_of_alter wrote
  rcases set with rfl | ⟨mode, set⟩
  · exact ⟨first, place⟩
  · obtain ⟨second, again⟩ := FileSystem.alike_of_setMode set
    exact ⟨first.trans second, again.trans place⟩

section Steps

variable {written settled : FileSystem}

/-- Where no link is, the staging file is all that comes or changes up to renaming. -/
theorem drafted_of_steps
    (solid : ∀ target, files.lookAtLink (stagingPath path) ≠ .ok (.link target))
    (wrote : files.write (stagingPath path) content = .ok written)
    (set : settled = written ∨ ∃ mode, written.setMode (stagingPath path) mode = .ok settled) :
    ∃ place mode, files.resolve .kept (stagingPath path) = .ok place ∧
      files.tree.IsLeaf place ∧ files.ChangedAt settled place (.file content mode) := by
  obtain ⟨place, old, mode, made, origin, changed⟩ := FileSystem.alter_eq_ok wrote
  have found : files.resolve .kept (stagingPath path) = .ok place := by
    rcases FileSystem.resolve_kept made with kept | ⟨other, target, kept, link⟩
    · exact kept
    · exact absurd (FileSystem.lookAtLink_eq_ok_iff.mpr ⟨other, kept, link⟩) (solid target)
  have leaf : files.tree.IsLeaf place := by
    rcases origin with file | ⟨absent, -, -⟩
    · exact FileTree.isLeaf_of_file file
    · exact FileTree.isLeaf_of_absent absent
  rcases set with rfl | ⟨bits, set⟩
  · exact ⟨place, mode, found, leaf, changed⟩
  · obtain ⟨alike, same⟩ := FileSystem.alike_of_alter wrote
    have again := FileSystem.resolve_of_alike alike same found
    have plain (target : Path) : written.tree.get? place ≠ some (.link target) := by
      rw [changed.there]
      simp
    obtain ⟨other, entry, followed, there, step⟩ := FileSystem.setMode_eq_ok set
    obtain rfl : other = place :=
      Except.ok.inj (followed.symm.trans (FileSystem.resolve_followed again plain))
    obtain rfl : .file content mode = entry := Option.some.inj (changed.there.symm.trans there)
    rcases step with ⟨draft, before, same, settled⟩ | ⟨other, -⟩
    · obtain ⟨rfl, -⟩ := Entry.file.inj same
      exact ⟨other, bits, found, leaf, changed.trans settled⟩
    · contradiction

/-- Where nothing was before, the staging file is all that has come up to renaming. -/
theorem changedAt_of_steps (clear : (files.lookAtLink (stagingPath path)).isOk = false)
    (wrote : files.write (stagingPath path) content = .ok written)
    (set : settled = written ∨ ∃ mode, written.setMode (stagingPath path) mode = .ok settled) :
    ∃ place mode, files.resolve .kept (stagingPath path) = .ok place ∧
      files.tree.get? place = none ∧ files.ChangedAt settled place (.file content mode) := by
  have nothing (entry : Entry) : files.lookAtLink (stagingPath path) ≠ .ok entry := by
    intro there
    rw [there] at clear
    contradiction
  obtain ⟨place, mode, found, -, changed⟩ :=
    drafted_of_steps (fun target => nothing (.link target)) wrote set
  have absent : files.tree.get? place = none := by
    cases there : files.tree.get? place with
    | none => rfl
    | some entry =>
      exact absurd (FileSystem.lookAtLink_eq_ok_iff.mpr ⟨place, found, there⟩) (nothing entry)
  exact ⟨place, mode, found, absent, changed⟩

end Steps

end Replacement

/-- Whether content has been put into the file at a path and nothing else has changed. -/
structure Framed (before after : FileSystem) (path : Path) (content : Bytes) : Prop where
  /-- The entry that the path names is a file with the content, and every other one is as it was. -/
  entry : ∃ goal mode, before.resolve .kept path = .ok goal ∧
    before.ChangedAt after goal (.file content mode)
  /-- The content is read at the path. A path of which the own entry was a link can lead through
  this link, and leads nowhere when a file has taken its place. -/
  read : (∀ target, before.lookAtLink path ≠ .ok (.link target)) → after.read path = .ok content

/-- Where nothing was before, a replacement puts the content into the file and changes nothing
else. -/
theorem framed_of_clear {device : Device} {files : FileSystem} {path : Path} {content : Bytes}
    (done : (replace device files path content).fault = none)
    (clear : (files.lookAtLink (stagingPath path)).isOk = false) :
    Framed files (replace device files path content).files path content := by
  obtain ⟨written, settled, wrote, set, moved⟩ := replace_done done
  obtain ⟨place, mode, staged, absent, drafted⟩ := changedAt_of_steps clear wrote set
  obtain ⟨alike, same⟩ := alike_of_steps wrote set
  obtain ⟨origin, goal, entry, found, aim, there, -, free, -, -, -, after⟩ :=
    FileSystem.rename_eq_ok moved
  have again := FileSystem.resolve_of_alike alike same staged
  obtain rfl : place = origin := Except.ok.inj (again.symm.trans found)
  obtain rfl : .file content mode = entry := Option.some.inj (drafted.there.symm.trans there)
  have target := FileSystem.resolve_of_alike alike.symm same.symm aim
  have changed : files.ChangedAt (replace device files path content).files goal
      (.file content mode) := by
    rw [after]
    have below : place ≠ [] := FileTree.ne_root (by rw [absent]; simp)
    exact (drafted.moved below (FileTree.ne_root free)).changedAt absent
  refine ⟨⟨goal, mode, target, changed⟩, fun solid => ?_⟩
  have leaf : files.tree.IsLeaf goal := by
    intro old before
    cases old with
    | file content mode => rfl
    | directory => exact absurd (alike.keep before rfl) free
    | link aim =>
      exact absurd (FileSystem.lookAtLink_eq_ok_iff.mpr ⟨goal, target, before⟩) (solid aim)
  have still := FileSystem.resolve_of_alike (changed.alike leaf) changed.workingDirectory target
  unfold FileSystem.read
  rw [FileSystem.lookAt_of_resolve still changed.there]
  rfl

/-- Whatever was where the staging file goes is gone after a replacement that succeeds. -/
theorem not_framed_of_present {device : Device} {files : FileSystem} {path : Path}
    {content : Bytes} (done : (replace device files path content).fault = none) {entry : Entry}
    (present : files.lookAtLink (stagingPath path) = .ok entry) :
    ¬ Framed files (replace device files path content).files path content := by
  obtain ⟨written, settled, wrote, set, moved⟩ := replace_done done
  obtain ⟨alike, same⟩ := alike_of_steps wrote set
  obtain ⟨place, staged, there⟩ := FileSystem.lookAtLink_eq_ok_iff.mp present
  have again := FileSystem.resolve_of_alike alike same staged
  obtain ⟨goal, aim, named, gone⟩ := FileSystem.gone_of_rename moved again
  have target := FileSystem.resolve_of_alike alike.symm same.symm aim
  intro framed
  obtain ⟨other, mode, found, changed⟩ := framed.entry
  obtain rfl : other = goal := Except.ok.inj (found.symm.trans target)
  obtain ⟨name, file, final⟩ := FileSystem.exists_fileName? named target
  have apart : place ≠ other := staging_ne file final staged
  have kept := changed.entries place
  rw [if_neg apart, there, gone apart] at kept
  contradiction

/-- A text that has been put into a file has changed nothing else exactly when nothing was where
the staging file goes. -/
theorem framed_iff_clear {device : Device} {files : FileSystem} {path : Path} {text : Text}
    (done : (files.replaceText device path text).2 = .ok ()) :
    Framed files (files.replaceText device path text).1 path (Utf8.encode text) ↔
      (files.lookAtLink (stagingPath path)).isOk = false := by
  obtain ⟨faultless, result⟩ : (replace device files path (Utf8.encode text)).fault = none ∧
      (files.replaceText device path text).1 =
        (replace device files path (Utf8.encode text)).files := by
    unfold FileSystem.replaceText at done ⊢
    cases why : (replace device files path (Utf8.encode text)).fault with
    | none => simp only [why, and_self]
    | some fault =>
      simp only [why] at done
      contradiction
  rw [result]
  constructor
  · intro framed
    cases present : files.lookAtLink (stagingPath path) with
    | error fault => rfl
    | ok entry => exact absurd framed (not_framed_of_present faultless present)
  · exact framed_of_clear faultless

/-- Two files beside each other. -/
def plainFiles : FileSystem where
  tree := ⟨[([Utf8.encode "a.c".toList], .file (Utf8.encode "old".toList) 0o600),
    ([Utf8.encode "b.c".toList], .file (Utf8.encode "other".toList) 0o644)]⟩
  workingDirectory := []

/-- Of two files beside each other only the one changes that is replaced. -/
theorem framed_iff_clear_plain :
    (plainFiles.replaceText .reliable (.ofString "a.c") "new".toList).2 = .ok () ∧
      Framed plainFiles (plainFiles.replaceText .reliable (.ofString "a.c") "new".toList).1
        (.ofString "a.c") (Utf8.encode "new".toList) := by
  have done : (plainFiles.replaceText .reliable (.ofString "a.c") "new".toList).2 = .ok () := by
    cbv
  have clear : (plainFiles.lookAtLink (stagingPath (.ofString "a.c"))).isOk = false := by
    cbv
  exact ⟨done, (framed_iff_clear done).mpr clear⟩

/-- A file and, where its staging file goes, a link to it. -/
def selfLinkedFiles : FileSystem where
  tree := ⟨[([Utf8.encode "a.c".toList], .file (Utf8.encode "old".toList) 0o644),
    ([Utf8.encode "a.c.hdrsync-tmp".toList], .link (.ofString "a.c"))]⟩
  workingDirectory := []

/-- Where a link to the file stands in the place of its staging file, a replacement succeeds and
leaves nothing but the link, which now leads to itself. -/
theorem replaceText_selfLinked :
    (selfLinkedFiles.replaceText .reliable (.ofString "a.c") "new".toList).2 = .ok () ∧
      (selfLinkedFiles.replaceText .reliable (.ofString "a.c") "new".toList).1.read
        (.ofString "a.c") = .error .manyLinks ∧
      (selfLinkedFiles.replaceText .reliable (.ofString "a.c") "new".toList).1.tree.entries =
        [([Utf8.encode "a.c".toList], .link (.ofString "a.c"))] := by
  refine ⟨?_, ?_, ?_⟩
  · cbv
  · cbv
  · cbv

end LicenseHeader
