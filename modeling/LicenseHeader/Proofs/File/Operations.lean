import LicenseHeader.Proofs.File.Change

/-!
# What an operation that succeeds has done

For each operation that changes files one statement of all that it has done when it succeeds:
`FileSystem.alter_eq_ok`, `FileSystem.setMode_eq_ok`, `FileSystem.rename_eq_ok` and
`FileSystem.remove_eq_ok`. Removing succeeds wherever a file or a link is
(`FileSystem.remove_of_present`).
`FileSystem.read_eq_ok_iff` says what is read at a path that names no link.
-/

namespace LicenseHeader.FileSystem

variable {files after : FileSystem} {path : Path}

/-- A file altered gets content made from that it had, and a new one is made from nothing. -/
theorem alter_eq_ok {change : Bytes → Bytes} (done : files.alter path change = .ok after) :
    ∃ place old mode, files.resolve .created path = .ok place ∧
      (files.tree.get? place = some (.file old mode) ∨
        files.tree.get? place = none ∧ old = [] ∧ mode = Entry.fileMode) ∧
      files.ChangedAt after place (.file (change old) mode) := by
  unfold alter at done
  cases found : files.resolve .created path with
  | error fault =>
    rw [found] at done
    contradiction
  | ok place =>
    rw [found] at done
    simp only [bind, Except.bind] at done
    cases there : files.tree.get? place with
    | none =>
      rw [there] at done
      have below : place ≠ [] := FileTree.ne_root (by rw [there]; simp)
      obtain rfl := Except.ok.inj done
      exact ⟨place, [], Entry.fileMode, rfl, .inr ⟨there, rfl, rfl⟩, changedAt_put files _ below⟩
    | some entry =>
      rw [there] at done
      cases entry with
      | file old mode =>
        have below : place ≠ [] := FileTree.ne_root (by rw [there]; simp)
        obtain rfl := Except.ok.inj done
        exact ⟨place, old, mode, rfl, .inl there, changedAt_put files _ below⟩
      | directory => contradiction
      | link target => contradiction

/-- An alteration touches nothing but a file. -/
theorem alike_of_alter {change : Bytes → Bytes} (done : files.alter path change = .ok after) :
    files.tree.Alike after.tree ∧ after.workingDirectory = files.workingDirectory := by
  obtain ⟨place, old, mode, -, origin, changed⟩ := alter_eq_ok done
  have leaf : files.tree.IsLeaf place := by
    rcases origin with file | ⟨absent, -, -⟩
    · exact FileTree.isLeaf_of_file file
    · exact FileTree.isLeaf_of_absent absent
  exact ⟨changed.alike leaf, changed.workingDirectory⟩

/-- Permission bits that are set are those of a file, and of anything else nothing is set. -/
theorem setMode_eq_ok {mode : Nat} (done : files.setMode path mode = .ok after) :
    ∃ place entry, files.resolve .followed path = .ok place ∧
      files.tree.get? place = some entry ∧
      ((∃ content old, entry = .file content old ∧
          files.ChangedAt after place (.file content mode)) ∨
        entry.isFile = false ∧ after = files) := by
  unfold setMode at done
  cases found : files.resolve .followed path with
  | error fault =>
    rw [found] at done
    contradiction
  | ok place =>
    rw [found] at done
    simp only [bind, Except.bind] at done
    cases there : files.tree.get? place with
    | none =>
      rw [there] at done
      contradiction
    | some entry =>
      rw [there] at done
      refine ⟨place, entry, rfl, there, ?_⟩
      cases entry with
      | file content old =>
        have below : place ≠ [] := FileTree.ne_root (by rw [there]; simp)
        obtain rfl := Except.ok.inj done
        exact .inl ⟨content, old, rfl, changedAt_put files _ below⟩
      | directory => exact .inr ⟨rfl, (Except.ok.inj done).symm⟩
      | link target => exact .inr ⟨rfl, (Except.ok.inj done).symm⟩

/-- Setting permission bits touches nothing but a file. -/
theorem alike_of_setMode {mode : Nat} (done : files.setMode path mode = .ok after) :
    files.tree.Alike after.tree ∧ after.workingDirectory = files.workingDirectory := by
  obtain ⟨place, entry, -, there, ⟨content, old, rfl, changed⟩ | ⟨-, rfl⟩⟩ := setMode_eq_ok done
  · exact ⟨changed.alike (FileTree.isLeaf_of_file there), changed.workingDirectory⟩
  · exact ⟨fun _ => .inl rfl, rfl⟩

/-- A file or a link that is renamed leaves its location and comes to that of the target, which is
no directory; both paths end in names. -/
theorem rename_eq_ok {source target : Path} (done : files.rename source target = .ok after) :
    ∃ origin goal entry, files.resolve .kept source = .ok origin ∧
      files.resolve .kept target = .ok goal ∧ files.tree.get? origin = some entry ∧
      entry ≠ .directory ∧ files.tree.get? goal ≠ some .directory ∧
      namesNoEntry source = false ∧ namesNoEntry target = false ∧ endsWithSlash target = false ∧
      after = { files with tree := (files.tree.erase origin).set goal entry } := by
  unfold rename at done
  cases left : files.resolve .kept source with
  | error fault =>
    rw [left] at done
    contradiction
  | ok origin =>
  cases come : files.resolve .kept target with
  | error fault =>
    rw [left, come] at done
    contradiction
  | ok goal =>
  rw [left, come] at done
  simp only [bind, Except.bind, pure, Except.pure, throw, throwThe, MonadExceptOf.throw] at done
  split at done
  · contradiction
  next idle =>
  obtain ⟨named, aimed⟩ := Bool.or_eq_false_iff.mp (Bool.eq_false_iff.mpr idle)
  split at done
  · contradiction
  · contradiction
  next entry solid there =>
  split at done
  · contradiction
  next slashed =>
  split at done
  · contradiction
  next free =>
  exact ⟨origin, goal, entry, rfl, rfl, there, solid, free, named, aimed,
    Bool.eq_false_iff.mpr slashed, (Except.ok.inj done).symm⟩

/-- What is renamed is gone from its location, unless it stays there. -/
theorem gone_of_rename {source target : Path} {origin : Location}
    (done : files.rename source target = .ok after)
    (found : files.resolve .kept source = .ok origin) :
    ∃ goal, files.resolve .kept target = .ok goal ∧
      (namesNoEntry target = false ∧ endsWithSlash target = false) ∧
      (origin ≠ goal → after.tree.get? origin = none) := by
  obtain ⟨place, goal, entry, left, aim, there, solid, free, -, named, slashed, moved⟩ :=
    rename_eq_ok done
  obtain rfl : place = origin := Except.ok.inj (left.symm.trans found)
  refine ⟨goal, aim, ⟨named, slashed⟩, fun apart => ?_⟩
  have below : place ≠ [] := by
    apply FileTree.ne_root
    rw [there]
    exact fun same => solid (Option.some.inj same)
  rw [moved, FileTree.get?_set _ entry place (FileTree.ne_root free), if_neg apart,
    FileTree.get?_erase files.tree place below, if_pos rfl]

/-- Nothing is removed where nothing but a directory is. -/
theorem remove_of_vacant
    (vacant : ∀ entry, files.lookAtLink path = .ok entry → entry = .directory) :
    (files.remove path).toOption = none := by
  unfold remove
  cases kept : files.resolve .kept path with
  | error fault => rfl
  | ok place =>
    cases there : files.tree.get? place with
    | none =>
      simp only [bind, Except.bind, there]
      rfl
    | some entry =>
      obtain rfl := vacant entry (lookAtLink_eq_ok_iff.mpr ⟨place, kept, there⟩)
      simp only [bind, Except.bind, there]
      rfl

/-- A file or a link is removed. -/
theorem remove_of_present {place : Location}
    (kept : files.resolve .kept path = .ok place) {entry : Entry}
    (there : files.tree.get? place = some entry) (other : entry ≠ .directory) :
    files.remove path = .ok { files with tree := files.tree.erase place } := by
  unfold remove
  rw [kept]
  simp only [bind, Except.bind, there]
  cases entry with
  | file old mode => rfl
  | directory => exact absurd rfl other
  | link target => rfl

/-- What is removed is a file or a link. -/
theorem remove_eq_ok (done : files.remove path = .ok after) :
    ∃ place entry, files.resolve .kept path = .ok place ∧ files.tree.get? place = some entry ∧
      entry ≠ .directory ∧ after = { files with tree := files.tree.erase place } := by
  cases kept : files.resolve .kept path with
  | error fault =>
    unfold remove at done
    rw [kept] at done
    contradiction
  | ok place =>
    by_cases solid : ∃ entry, files.tree.get? place = some entry ∧ entry ≠ .directory
    · obtain ⟨entry, there, other⟩ := solid
      rw [remove_of_present kept there other] at done
      exact ⟨place, entry, rfl, there, other, (Except.ok.inj done).symm⟩
    · have none : (files.remove path).toOption = none := by
        apply remove_of_vacant
        intro entry present
        obtain ⟨other, found, there⟩ := lookAtLink_eq_ok_iff.mp present
        obtain rfl : place = other := Except.ok.inj (kept.symm.trans found)
        exact Decidable.byContradiction fun other => solid ⟨entry, there, other⟩
      rw [done] at none
      contradiction

/-- What is read at a path that names no link is the content of the file at its location. -/
theorem read_eq_ok_iff {content : Bytes}
    (solid : ∀ target, files.lookAtLink path ≠ .ok (.link target)) :
    files.read path = .ok content ↔ ∃ goal mode, files.resolve .kept path = .ok goal ∧
      files.tree.get? goal = some (.file content mode) := by
  constructor
  · intro read
    unfold FileSystem.read lookAt at read
    cases found : files.resolve .followed path with
    | error fault =>
      rw [found] at read
      contradiction
    | ok goal =>
      rw [found] at read
      simp only [bind, Except.bind] at read
      cases there : files.tree.get? goal with
      | none =>
        rw [there] at read
        contradiction
      | some entry =>
        rw [there] at read
        cases entry with
        | file old mode =>
          obtain rfl : old = content := Except.ok.inj read
          rcases resolve_kept found with kept | ⟨place, target, kept, link⟩
          · exact ⟨goal, mode, kept, there⟩
          · exact absurd (lookAtLink_eq_ok_iff.mpr ⟨place, kept, link⟩) (solid target)
        | directory => contradiction
        | link target => contradiction
  · intro ⟨goal, mode, found, there⟩
    unfold FileSystem.read
    rw [lookAt_of_resolve found there]
    rfl

end LicenseHeader.FileSystem
