import LicenseHeader.Proofs.Batch.Plan

/-!
# Processing one file

Processing a file reads what is at its location, and changes nothing but this and what is at the
location of its staging file: these two are its cell. `Candidate.work` computes what a cell holds
afterwards from what it held, and `worked_applyHeader` says that the files go through the same.
Cells of files at two locations have nothing in common.
-/

namespace LicenseHeader

open Replacement

/-- Whether a candidate is that of its path, where its own entry is no link and nothing but a file
is in the place of its staging file. -/
structure Tidy (files : FileSystem) (c : Candidate) : Prop where
  /-- The style is that of the file name. -/
  made : Candidate.ofPath? c.path = some c
  /-- The entry is no link. -/
  solid : ∀ target, files.lookAtLink c.path ≠ .ok (.link target)
  /-- At most a file is where the staging file goes. -/
  loose : ∀ place, files.resolve .kept (stagingPath c.path) = .ok place →
    files.tree.IsLeaf place

/-- Whether a candidate leads to a location at which at most a file is. -/
structure Candidate.Aims (files : FileSystem) (c : Candidate) (goal : Location) : Prop where
  /-- The path leads to the location. -/
  found : files.resolve .kept c.path = .ok goal
  /-- At most a file is there. -/
  leaf : files.tree.IsLeaf goal

/-- What is at the location of a file and at that of its staging file. -/
structure Cell where
  /-- The entry at the location. -/
  file : Option Entry
  /-- The entry at the location of the staging file. -/
  staging : Option Entry

/-- The cell of a location. -/
def FileTree.cellAt (tree : FileTree) (goal : Location) : Cell :=
  ⟨tree.get? goal, tree.get? (stagingPlace goal)⟩

section Kept

variable {before after : FileSystem} {c : Candidate}

/-- Trees that differ in nothing but files have the same leaves. -/
theorem FileTree.Alike.isLeaf {before after : FileTree} (alike : before.Alike after)
    {place : Location} (leaf : before.IsLeaf place) : after.IsLeaf place := by
  rcases alike place with same | ⟨-, leaf⟩
  · exact leaf.of_eq same
  · exact leaf

/-- A candidate stays tidy where nothing but files differs. -/
theorem Tidy.of_resembles (tidy : Tidy before c) (same : before.Resembles after) :
    Tidy after c where
  made := tidy.made
  solid target there := by
    obtain ⟨goal, found, link⟩ := FileSystem.lookAtLink_eq_ok_iff.mp there
    apply tidy.solid target
    exact FileSystem.lookAtLink_eq_ok_iff.mpr
      ⟨goal, same.resolve_iff.mp found, same.alike.symm.keep link rfl⟩
  loose place staged := same.alike.isLeaf (tidy.loose place (same.resolve_iff.mp staged))

/-- A candidate is tidy where nothing is in the place of its staging file. -/
theorem tidy_of_clear (made : Candidate.ofPath? c.path = some c)
    (solid : ∀ target, before.lookAtLink c.path ≠ .ok (.link target))
    (clear : (before.lookAtLink (stagingPath c.path)).isOk = false) : Tidy before c :=
  ⟨made, solid, fun _ staged => FileTree.isLeaf_of_absent (absent_of_clear clear staged)⟩

/-- A staging file is made where its path leads. -/
theorem Tidy.kept_of_created (tidy : Tidy before c) {place : Location}
    (made : before.resolve .created (stagingPath c.path) = .ok place) :
    before.resolve .kept (stagingPath c.path) = .ok place := by
  rcases FileSystem.resolve_kept made with kept | ⟨other, target, kept, link⟩
  · exact kept
  · have file := tidy.loose other kept (.link target) link
    contradiction

/-- A candidate leads to the same location where nothing but files differs. -/
theorem Candidate.Aims.of_resembles {goal : Location} (aims : c.Aims before goal)
    (same : before.Resembles after) : c.Aims after goal :=
  ⟨same.resolve_iff.mpr aims.found, same.alike.isLeaf aims.leaf⟩

end Kept

namespace Candidate

section Aims

variable {files : FileSystem} {c d : Candidate} {goal other : Location}

/-- A candidate leads to one location. -/
theorem Aims.unique (aims : c.Aims files goal) (also : c.Aims files other) : goal = other :=
  Except.ok.inj (aims.found.symm.trans also.found)

/-- At the location of a file there is no directory. -/
theorem Aims.ne_directory (aims : c.Aims files goal) :
    files.tree.get? goal ≠ some .directory := by
  intro there
  have file := aims.leaf .directory there
  contradiction

/-- The staging file of a candidate goes to the location that belongs to its own. -/
theorem Aims.eq_stagingPlace (aims : c.Aims files goal) (made : ofPath? c.path = some c)
    {place : Location} (staged : files.resolve .kept (stagingPath c.path) = .ok place) :
    place = stagingPlace goal := by
  obtain ⟨name, named, -, -⟩ := exists_name made aims.found aims.ne_directory
  exact Replacement.eq_stagingPlace named aims.found aims.ne_directory staged

/-- The cells of two locations have nothing in common. -/
theorem Aims.disjoint (aims : c.Aims files goal) (also : d.Aims files other)
    (first : ofPath? c.path = some c) (second : ofPath? d.path = some d) (apart : other ≠ goal) :
    other ≠ stagingPlace goal ∧ stagingPlace other ≠ goal ∧
      stagingPlace other ≠ stagingPlace goal := by
  refine ⟨?_, ?_, fun same => ?_⟩
  · exact ne_stagingPlace second also.found also.ne_directory goal
  · exact (ne_stagingPlace first aims.found aims.ne_directory other).symm
  · exact apart (stagingPlace_inj also.leaf.ne_root aims.leaf.ne_root same)

/-- The entry of a candidate that leads nowhere, or to what is no file, cannot be read. -/
theorem plan_of_lost (device : Device) (lost : ¬ ∃ goal, c.Aims files goal) {after : FileSystem}
    (same : files.Resembles after) :
    c.plan device (after.entry? c.path) = .error "read error" := by
  have other : ∀ content mode, after.entry? c.path ≠ some (.file content mode) := by
    intro content mode named
    obtain ⟨goal, found, there⟩ := FileSystem.exists_of_entry? named
    have aims : c.Aims after goal := ⟨found, FileTree.isLeaf_of_file there⟩
    exact lost ⟨goal, aims.of_resembles same.symm⟩
  unfold plan textOf
  split
  next content mode readable named => exact absurd named (other content mode)
  · rfl

end Aims

/-- What the cell of a candidate holds after processing, where it held what is given before. -/
def work (device : Device) (files : FileSystem) (c : Candidate) (cell : Cell) : Cell :=
  match c.plan device cell.file with
  | .ok (some new) =>
    if isObstructed device files c.path then
      if (files.resolve .created (stagingPath c.path)).isOk then
        ⟨cell.file,
          leftover device (stagingPath c.path) (Utf8.encode new) (bitsOf cell.file) cell.staging⟩
      else cell
    else ⟨some (.file (Utf8.encode new) (bitsOf cell.file)), none⟩
  | _ => cell

section Work

variable {device : Device} {start : FileSystem} {c : Candidate} {cell : Cell}

/-- A cell whose candidate has no other text planned stays as it is. -/
theorem work_of_idle (idle : ∀ new, c.plan device cell.file ≠ .ok (some new)) :
    c.work device start cell = cell := by
  unfold work
  split
  next new planned => exact absurd planned (idle new)
  · rfl

/-- The cell of a candidate whose file cannot be written keeps the file. -/
theorem work_of_blocked {new : Text} (planned : c.plan device cell.file = .ok (some new))
    (blocked : isObstructed device start c.path = true) :
    c.work device start cell =
      if (start.resolve .created (stagingPath c.path)).isOk then
        ⟨cell.file,
          leftover device (stagingPath c.path) (Utf8.encode new) (bitsOf cell.file) cell.staging⟩
      else cell := by
  unfold work
  rw [planned]
  simp only [blocked, ↓reduceIte]

/-- The file of a cell stays as it is, or is a text that gets its normal form. -/
theorem file_work (device : Device) (start : FileSystem) (c : Candidate) (cell : Cell) :
    (c.work device start cell).file = cell.file ∨
    ∃ text mode new, cell.file = some (.file (Utf8.encode text) mode) ∧
      normalize c.style text = some new ∧
      (c.work device start cell).file = some (.file (Utf8.encode new) mode) := by
  unfold work
  split
  next new planned =>
    split
    · split
      · exact .inl rfl
      · exact .inl rfl
    · obtain ⟨text, read, rebuilt⟩ := plan_eq_ok_iff.mp planned
      obtain ⟨-, mode, there⟩ := textOf_eq_ok_iff.mp read
      refine .inr ⟨text, mode, new, there, rebuilt, ?_⟩
      rw [there]
      rfl
  · exact .inl rfl

end Work

end Candidate

/-- What processing a candidate has done, in terms of files that those before differed from in
nothing but files. -/
structure Worked (device : Device) (start now : FileSystem) (c : Candidate) (after : FileSystem) :
    Prop where
  /-- Nothing but files differs. -/
  resembles : start.Resembles after
  /-- The cell of the candidate has been worked on. -/
  cell : ∀ goal, c.Aims start goal →
    after.tree.cellAt goal = c.work device start (now.tree.cellAt goal)
  /-- Every other location has the entry that it had. -/
  other : ∀ place, (∀ goal, c.Aims start goal → place ≠ goal ∧ place ≠ stagingPlace goal) →
    after.tree.get? place = now.tree.get? place

section Worked

variable {device : Device} {start now after : FileSystem} {c : Candidate}

/-- A cell that stays as it is has been worked on when nothing was to be done. -/
theorem Worked.of_idle (same : start.Resembles now)
    (idle : ∀ goal, c.Aims start goal →
      c.work device start (now.tree.cellAt goal) = now.tree.cellAt goal) :
    Worked device start now c now where
  resembles := same
  cell goal aims := (idle goal aims).symm
  other _ _ := rfl

/-- A cell that was touched holds what is given. -/
theorem FileSystem.Touched.cellAt_eq {goal : Location} {first second : Option Entry}
    (touched : now.Touched after goal (stagingPlace goal) first second) :
    after.tree.cellAt goal = ⟨first, second⟩ := by
  unfold FileTree.cellAt
  rw [touched.entries, touched.entries, if_pos rfl, if_neg (stagingPlace_ne goal), if_pos rfl]

/-- A cell that was touched has been worked on. -/
theorem Worked.of_touched (tidy : Tidy start c) (same : start.Resembles now) {goal : Location}
    (aims : c.Aims start goal) {place : Location}
    (staged : now.resolve .kept (stagingPath c.path) = .ok place)
    {first second : Option Entry} (touched : now.Touched after goal place first second)
    (file : ∀ entry ∈ first, entry.isFile = true) (other : ∀ entry ∈ second, entry.isFile = true)
    (done : c.work device start (now.tree.cellAt goal) = ⟨first, second⟩) :
    Worked device start now c after := by
  have leaf := (tidy.of_resembles same).loose place staged
  obtain rfl := (aims.of_resembles same).eq_stagingPlace tidy.made staged
  have still := touched.resembles (aims.of_resembles same).leaf leaf file other
  refine ⟨same.trans still, fun aim also => ?_, fun here away => ?_⟩
  · obtain rfl := aims.unique also
    rw [touched.cellAt_eq, done]
  · obtain ⟨elsewhere, apart⟩ := away goal aims
    rw [touched.entries, if_neg elsewhere, if_neg apart]

/-- Applying the header to a file works on its cell. -/
theorem Applied.worked {result : Except ApplyError Bool}
    (applied : Applied device now c after result) (tidy : Tidy start c)
    (same : start.Resembles now) : Worked device start now c after := by
  have entry {goal : Location} (aims : c.Aims start goal) :
      (now.tree.cellAt goal).file = now.entry? c.path :=
    (FileSystem.entry?_of_resolve (aims.of_resembles same).found).symm
  have rest (idle : ∀ new, c.plan device (now.entry? c.path) ≠ .ok (some new)) :
      Worked device start now c now :=
    .of_idle same fun goal aims => Candidate.work_of_idle (by rwa [entry aims])
  have target {goal : Location} {old : Bytes} {mode : Nat}
      (able : Replaceable now c.path goal old mode) : c.Aims start goal :=
    ⟨same.resolve_iff.mp able.found,
      same.alike.symm.isLeaf (FileTree.isLeaf_of_file able.file)⟩
  cases applied with
  | unread error failed =>
    apply rest
    intro new
    rw [failed]
    simp
  | canonical right =>
    apply rest
    intro new
    rw [right]
    simp
  | updated planned able free made touched =>
    have aims := target able
    apply Worked.of_touched tidy same aims (able.leaf made).1 touched
    · rintro entry ⟨⟩
      rfl
    · rintro entry ⟨⟩
    · rw [isObstructed_of_resembles same] at free
      unfold Candidate.work
      rw [entry aims, planned]
      simp only [free, Bool.false_eq_true, ↓reduceIte]
      rw [FileSystem.entry?_of_resolve able.found, able.file]
      rfl
  | refused fault planned able blocked unmade =>
    apply Worked.of_idle same
    intro goal aims
    rw [isObstructed_of_resembles same] at blocked
    rw [same.isOk_resolve] at unmade
    unfold Candidate.work
    rw [entry aims, planned]
    simp only [blocked, unmade, Bool.false_eq_true, ↓reduceIte]
  | dropped fault planned able blocked made touched =>
    have aims := target able
    have staged := (able.leaf made).1
    apply Worked.of_touched tidy same aims staged touched
    · intro entry there
      rw [able.file] at there
      obtain rfl := Option.some.inj there
      rfl
    · exact isFile_leftover (able.leaf made).2.1
    · have spot := (aims.of_resembles same).eq_stagingPlace tidy.made staged
      rw [isObstructed_of_resembles same] at blocked
      rw [same.resolve_iff] at made
      unfold Candidate.work
      rw [entry aims, planned, spot]
      simp only [blocked, made, ↓reduceIte]
      rw [FileSystem.entry?_of_resolve able.found, able.file]
      rfl

end Worked

/-- What is reported of a candidate whose path names the given entry. -/
def Candidate.foretell (device : Device) (files : FileSystem) (c : Candidate)
    (entry : Option Entry) : Report :=
  c.report (isObstructed device files c.path) (c.plan device entry)

/-- Whether two candidates do not lead to one file. -/
def Candidate.Apart (files : FileSystem) (c d : Candidate) : Prop :=
  ∀ goal, c.Aims files goal → ¬ d.Aims files goal

/-- Candidates are apart both ways. -/
theorem Candidate.Apart.symm {files : FileSystem} {c d : Candidate} (apart : c.Apart files d) :
    d.Apart files c := fun goal aims also => apart goal also aims

/-- Another candidate leads to the same file, or they are apart. -/
theorem Candidate.Aims.or_apart {files : FileSystem} {c : Candidate} {goal : Location}
    (aims : c.Aims files goal) (d : Candidate) : d.Aims files goal ∨ d.Apart files c := by
  by_cases also : d.Aims files goal
  · exact .inl also
  · refine .inr fun other first second => also ?_
    obtain rfl := aims.unique second
    exact first

section Process

variable {batch : Batch} {device : Device} {start now after : FileSystem} {c d : Candidate}
  {candidates : List Candidate}

/-- Processing a candidate works on its cell and reports what is foretold for its entry. -/
theorem worked_processFile (writes : batch.checkOnly = false) (device : Device)
    (tidy : Tidy start c) (same : start.Resembles now) :
    Worked device start now c (batch.processFile device now c).files ∧
      Batch.reportOf c (batch.processFile device now c).result =
        c.foretell device start (now.entry? c.path) := by
  have here := tidy.of_resembles same
  have loose : ∀ place, now.resolve .kept (stagingPath c.path) = .ok place →
      now.tree.IsLeaf place ∧ now.resolve .kept c.path ≠ .ok place := by
    intro place staged
    have leaf := here.loose place staged
    refine ⟨leaf, fun found => ?_⟩
    have aims : c.Aims now place := ⟨found, leaf⟩
    exact stagingPlace_ne place (aims.eq_stagingPlace here.made staged).symm
  have applied := applied_applyHeader device here.solid loose
  rw [processFile_of_writes writes]
  refine ⟨applied.worked tidy same, ?_⟩
  unfold Candidate.foretell
  rw [← isObstructed_of_resembles same]
  exact applied.reportOf_eq

/-- The cell of another file stays as it is. -/
theorem Worked.cellAt_eq (worked : Worked device start now c after)
    (first : Candidate.ofPath? c.path = some c) (second : Candidate.ofPath? d.path = some d)
    (apart : c.Apart start d) {other : Location} (aims : d.Aims start other) :
    after.tree.cellAt other = now.tree.cellAt other := by
  have elsewhere {goal : Location} (also : c.Aims start goal) : other ≠ goal := by
    rintro rfl
    exact apart other also aims
  have file : after.tree.get? other = now.tree.get? other := by
    apply worked.other
    intro goal also
    exact ⟨elsewhere also, (also.disjoint aims first second (elsewhere also)).1⟩
  have staging : after.tree.get? (stagingPlace other) = now.tree.get? (stagingPlace other) := by
    apply worked.other
    intro goal also
    exact (also.disjoint aims first second (elsewhere also)).2
  unfold FileTree.cellAt
  rw [file, staging]

/-- Whether a location is in no cell of candidates. -/
def Outside (files : FileSystem) (candidates : List Candidate) (place : Location) : Prop :=
  ∀ c ∈ candidates, ∀ goal, c.Aims files goal → place ≠ goal ∧ place ≠ stagingPlace goal

/-- Files with the same cells of candidates agree when they are the same everywhere else. -/
theorem agrees_of_cellAt_eq (candidates : List Candidate) {first second : FileSystem}
    (same : start.Resembles first) (also : start.Resembles second)
    (cells : ∀ c ∈ candidates, ∀ goal, c.Aims start goal →
      second.tree.cellAt goal = first.tree.cellAt goal)
    (others : ∀ place, Outside start candidates place →
      second.tree.get? place = first.tree.get? place) : first.Agrees second := by
  refine ⟨by rw [also.rest, same.rest], fun place => ?_⟩
  by_cases inside : ∃ c ∈ candidates, ∃ goal, c.Aims start goal ∧
      (place = goal ∨ place = stagingPlace goal)
  · obtain ⟨c, member, goal, aims, rfl | rfl⟩ := inside
    · exact congrArg Cell.file (cells c member place aims)
    · exact congrArg Cell.staging (cells c member goal aims)
  · apply others
    intro c member goal aims
    exact ⟨fun here => inside ⟨c, member, goal, aims, .inl here⟩,
      fun here => inside ⟨c, member, goal, aims, .inr here⟩⟩

/-- Processing candidates changes nothing but files, and nothing outside their cells. -/
theorem frame_process (writes : batch.checkOnly = false) (device : Device)
    (tidy : ∀ c ∈ candidates, Tidy start c) (same : start.Resembles now) :
    start.Resembles (batch.process device now candidates).files ∧
      ∀ place, Outside start candidates place →
        (batch.process device now candidates).files.tree.get? place = now.tree.get? place := by
  induction candidates generalizing now with
  | nil => exact ⟨same, fun _ _ => rfl⟩
  | cons c more ih =>
    have worked := (worked_processFile writes device (tidy c List.mem_cons_self) same).1
    obtain ⟨still, frame⟩ := ih (fun d member => tidy d (List.mem_cons_of_mem c member))
      worked.resembles
    refine ⟨still, fun place outside => ?_⟩
    have later := frame place fun d member => outside d (List.mem_cons_of_mem c member)
    exact later.trans (worked.other place (outside c List.mem_cons_self))

end Process

end LicenseHeader
