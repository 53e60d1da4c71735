import LicenseHeader.Proofs.Batch.Cell
import LicenseHeader.Proofs.Batch.Reached
import Mathlib.Data.List.Forall2

/-!
# Processing files again

A second run over the same candidates changes nothing (`repeated_process`). The two runs are
followed side by side: `Echoes` says how the cell of a file is in both, where the second run starts
with the files in which the first one ends. Candidates may be repeated or lead to one file under
several paths, and a staging file may be left that the device does not remove.
-/

namespace LicenseHeader

open Replacement

/-- How the location of a staging file is in two runs, where `start` and `final` are what it holds
before and after the first. -/
inductive Mirrors (start final : Option Entry) : Option Entry → Option Entry → Prop where
  /-- It is the same in both. -/
  | same (entry : Option Entry) : Mirrors start final entry entry
  /-- Neither has touched it. -/
  | untouched : Mirrors start final start final
  /-- Both have written to it what keeps the permission bits. -/
  | kept (content : Bytes) : Mirrors start final (some (.file content Entry.fileMode))
      (some (.file content (bitsOf final)))

/-- What is left of a staging file is left by both runs. -/
theorem Mirrors.leftover {device : Device} {staging : Path} {content : Bytes} {mode : Nat}
    {final first second : Option Entry} (mirrors : Mirrors none final first second) :
    Mirrors none final (leftover device staging content mode first)
      (leftover device staging content mode second) := by
  unfold Replacement.leftover stalled draft
  cases device.remove staging with
  | none => exact .same none
  | some fault =>
  cases device.opening staging with
  | some shut => exact mirrors
  | none =>
    simp only [Option.isSome_some, Option.isSome_none, Bool.false_eq_true, ↓reduceIte]
    cases (device.write staging).isSome || (device.setMode staging).isSome with
    | false => exact .same _
    | true =>
      cases mirrors with
      | same entry => exact .same _
      | untouched => exact .kept _
      | kept other => exact .kept _

/-- What mirrors the end of the first run is the same. -/
theorem Mirrors.eq_final {start final second : Option Entry}
    (mirrors : Mirrors start final final second) : second = final := by
  generalize last : final = first at mirrors
  cases mirrors with
  | same entry => rfl
  | untouched => rfl
  | kept content => rfl

/-- How the cell of a candidate is in two runs, of which the second starts with the files in which
the first ends: the file has been read as text and is canonical in the end, and the second run has
left the cell as it is; or both runs have left the file as it is. -/
inductive Echoes (start final now again : FileSystem) (c : Candidate) (goal : Location) : Prop where
  /-- The second run has left the cell of a canonical file. -/
  | settled {text : Text} {mode : Nat}
      (file : now.tree.get? goal = some (.file (Utf8.encode text) mode))
      (canonical : IsCanonical final c goal)
      (cell : again.tree.cellAt goal = final.tree.cellAt goal)
  /-- Both runs have left the file. -/
  | level (first : now.tree.get? goal = final.tree.get? goal)
      (second : again.tree.get? goal = final.tree.get? goal)
      (staging : Mirrors (start.tree.get? (stagingPlace goal))
        (final.tree.get? (stagingPlace goal)) (now.tree.get? (stagingPlace goal))
        (again.tree.get? (stagingPlace goal)))

/-- Once the first run is at its end the second run has left the cell as it is. -/
theorem Echoes.cellAt_eq {start final again : FileSystem} {c : Candidate} {goal : Location}
    (echoes : Echoes start final final again c goal) :
    again.tree.cellAt goal = final.tree.cellAt goal := by
  cases echoes with
  | settled _ _ cell => exact cell
  | level _ second staging =>
    unfold FileTree.cellAt
    rw [second, staging.eq_final]

section Canonical

variable {batch : Batch} {start now : FileSystem} {c d : Candidate} {goal : Location}
  {candidates : List Candidate}

/-- Nothing is planned for a canonical file. -/
theorem plan_of_isCanonical (canonical : IsCanonical now c goal) (device : Device) :
    c.plan device (now.tree.get? goal) =
      if (device.read c.path).isSome then .error "read error" else .ok none := by
  obtain ⟨text, mode, there, right⟩ := canonical
  cases readable : device.read c.path with
  | some fault => exact Candidate.plan_of_fault readable _
  | none =>
    exact Candidate.plan_eq_ok_iff.mpr
      ⟨text, Candidate.textOf_eq_ok_iff.mpr ⟨readable, mode, there⟩, right⟩

/-- A candidate works on the cell of a canonical file by doing nothing. -/
theorem work_of_isCanonical (canonical : IsCanonical now c goal) (device : Device)
    (start : FileSystem) :
    c.work device start (now.tree.cellAt goal) = now.tree.cellAt goal := by
  apply Candidate.work_of_idle
  intro new planned
  have plan := plan_of_isCanonical canonical device
  rw [show (now.tree.cellAt goal).file = now.tree.get? goal from rfl, plan] at planned
  by_cases failing : (device.read c.path).isSome = true
  · rw [if_pos failing] at planned
    contradiction
  · rw [if_neg failing] at planned
    exact absurd (Except.ok.inj planned) (by simp)

/-- A file is canonical for all candidates that lead to it. -/
theorem IsCanonical.of_style (canonical : IsCanonical now c goal) (same : c.style = d.style) :
    IsCanonical now d goal := by
  obtain ⟨text, mode, there, right⟩ := canonical
  exact ⟨text, mode, there, same ▸ right⟩

/-- A file that stays as it is is still canonical. -/
theorem IsCanonical.of_eq (canonical : IsCanonical now c goal) {after : FileSystem}
    (same : after.tree.get? goal = now.tree.get? goal) : IsCanonical after c goal := by
  obtain ⟨text, mode, there, right⟩ := canonical
  exact ⟨text, mode, same.trans there, right⟩

section Step

variable {device : Device} {after : FileSystem} (worked : Worked device start now d after)
  (made : Candidate.ofPath? c.path = some c) (other : Candidate.ofPath? d.path = some d)
  (aims : c.Aims start goal)

include worked made other aims

/-- Processing a candidate leaves a canonical file as it is. -/
theorem Worked.cellAt_of_isCanonical (canonical : IsCanonical now c goal) :
    after.tree.cellAt goal = now.tree.cellAt goal := by
  rcases aims.or_apart d with also | apart
  · have style := Candidate.style_eq made other aims.found also.found aims.ne_directory
    exact (worked.cell goal also).trans
      (work_of_isCanonical (canonical.of_style style) device start)
  · exact worked.cellAt_eq other made apart aims

/-- Processing a candidate leaves a file as it is, or makes a text canonical. -/
theorem Worked.get?_or_isCanonical : after.tree.get? goal = now.tree.get? goal ∨
    (∃ text mode, now.tree.get? goal = some (.file (Utf8.encode text) mode)) ∧
      IsCanonical after c goal := by
  rcases aims.or_apart d with also | apart
  · have cell := congrArg Cell.file (worked.cell goal also)
    have style := Candidate.style_eq made other aims.found also.found aims.ne_directory
    rcases Candidate.file_work device start d (now.tree.cellAt goal) with
      still | ⟨text, mode, new, there, rebuilt, written⟩
    · exact .inl (cell.trans still)
    · refine .inr ⟨⟨text, mode, there⟩, new, mode, cell.trans written, ?_⟩
      rw [style]
      exact normalize_of_prefix (header_prefix_of_made rebuilt)
  · exact .inl (congrArg Cell.file (worked.cellAt_eq other made apart aims))

end Step

section Run

variable (writes : batch.checkOnly = false) (device : Device)
  (tidy : ∀ d ∈ candidates, Tidy start d) (same : start.Resembles now)
  (made : Candidate.ofPath? c.path = some c) (aims : c.Aims start goal)

include writes tidy same made aims

/-- A canonical file stays as it is when candidates are processed. -/
theorem cellAt_of_isCanonical (canonical : IsCanonical now c goal) :
    (batch.process device now candidates).files.tree.cellAt goal = now.tree.cellAt goal := by
  induction candidates generalizing now with
  | nil => rfl
  | cons d more ih =>
    have first := tidy d List.mem_cons_self
    have worked := (worked_processFile writes device first same).1
    have still := worked.cellAt_of_isCanonical made first.made aims canonical
    have kept := canonical.of_eq (congrArg Cell.file still)
    exact (ih (fun e member => tidy e (List.mem_cons_of_mem d member)) worked.resembles
      kept).trans still

/-- The file of a candidate stays as it is when candidates are processed, or is a text that becomes
canonical. -/
theorem get?_or_isCanonical :
    (batch.process device now candidates).files.tree.get? goal = now.tree.get? goal ∨
      (∃ text mode, now.tree.get? goal = some (.file (Utf8.encode text) mode)) ∧
        IsCanonical (batch.process device now candidates).files c goal := by
  induction candidates generalizing now with
  | nil => exact .inl rfl
  | cons d more ih =>
    have first := tidy d List.mem_cons_self
    have others := fun e member => tidy e (List.mem_cons_of_mem d member)
    have worked := (worked_processFile writes device first same).1
    rcases worked.get?_or_isCanonical made first.made aims with still | ⟨text, canonical⟩
    · rcases ih others worked.resembles with rest | ⟨text, canonical⟩
      · exact .inl (rest.trans still)
      · rw [still] at text
        exact .inr ⟨text, canonical⟩
    · have kept := cellAt_of_isCanonical writes device others worked.resembles made aims
        canonical
      exact .inr ⟨text, canonical.of_eq (congrArg Cell.file kept)⟩

end Run

end Canonical

/-- What a report of the second run has to be after one of the first: a file that was updated or
unchanged is unchanged, and one that could not be read fails for the same reason. -/
structure Repeats (first second : Report) : Prop where
  /-- The path is the same. -/
  path : second.path = first.path
  /-- The style is the same. -/
  style : second.style = first.style
  /-- A file that has been written, or was canonical, is unchanged. -/
  settled : first.action = .updated ∨ first.action = .unchanged →
    second.action = .unchanged ∧ second.reason = none
  /-- A file that could not be read fails as it did. -/
  failed : first.action = .failed → first.reason ≠ some "write error" → second = first

namespace Repeats

variable {c : Candidate}

/-- The report of a file that is not updated is repeated. -/
theorem of_plan {blocked : Bool} {plan : Except String (Option Text)}
    (idle : ∀ new, plan = .ok (some new) → blocked = true) :
    Repeats (c.report blocked plan) (c.report blocked plan) := by
  refine ⟨rfl, rfl, fun settled => ?_, fun _ _ => rfl⟩
  cases plan with
  | error reason => rcases settled with updated | unchanged <;> contradiction
  | ok next =>
    cases next with
    | none => exact ⟨rfl, rfl⟩
    | some new =>
      rw [idle new rfl] at settled
      rcases settled with updated | unchanged <;> contradiction

/-- A file that could be read is unchanged when nothing is planned for it any more. -/
theorem of_canonical (blocked : Bool) (next : Option Text) :
    Repeats (c.report blocked (.ok next)) (.plain c .unchanged) := by
  cases next with
  | none => exact ⟨rfl, rfl, fun _ => ⟨rfl, rfl⟩, fun failed => by contradiction⟩
  | some new =>
    cases blocked with
    | true => exact ⟨rfl, rfl, fun _ => ⟨rfl, rfl⟩, fun _ other => absurd rfl other⟩
    | false => exact ⟨rfl, rfl, fun _ => ⟨rfl, rfl⟩, fun failed => by contradiction⟩

end Repeats

section Second

variable {batch : Batch} {device : Device} {start now again : FileSystem} {c d : Candidate}
  {goal : Location} {more : List Candidate}

/-- A file for which another text is planned, and which is as it is in the end, cannot be
written. -/
theorem isObstructed_of_planned (writes : batch.checkOnly = false)
    (tidy : ∀ e ∈ d :: more, Tidy start e) (same : start.Resembles now)
    (aims : d.Aims start goal) {new : Text}
    (planned : d.plan device (now.tree.get? goal) = .ok (some new))
    (level : now.tree.get? goal =
      (batch.process device now (d :: more)).files.tree.get? goal) :
    isObstructed device start d.path = true := by
  have first := tidy d List.mem_cons_self
  have worked := (worked_processFile writes device first same).1
  by_contra free
  have written : (batch.processFile device now d).files.tree.get? goal =
      some (.file (Utf8.encode new) (bitsOf (now.tree.get? goal))) := by
    have cell := congrArg Cell.file (worked.cell goal aims)
    unfold Candidate.work FileTree.cellAt at cell
    rw [planned] at cell
    simpa only [free, Bool.false_eq_true, ↓reduceIte] using cell
  have right := Candidate.plan_of_plan planned (bitsOf (now.tree.get? goal))
  have canonical : IsCanonical (batch.processFile device now d).files d goal := by
    obtain ⟨text, read, rebuilt⟩ := Candidate.plan_eq_ok_iff.mp right
    obtain ⟨-, mode, there⟩ := Candidate.textOf_eq_ok_iff.mp read
    exact ⟨text, mode, written.trans there, rebuilt⟩
  have kept := cellAt_of_isCanonical writes device
    (fun e member => tidy e (List.mem_cons_of_mem d member)) worked.resembles first.made aims
    canonical
  have final := level.trans ((congrArg Cell.file kept).trans written)
  rw [final, right] at planned
  exact absurd (Except.ok.inj planned) (by simp)

/-- Cells that stay as they are stay so in two runs. -/
theorem Echoes.of_cellAt {final : FileSystem} (echoes : Echoes start final now again c goal)
    {next later : FileSystem} (first : next.tree.cellAt goal = now.tree.cellAt goal)
    (second : later.tree.cellAt goal = again.tree.cellAt goal) :
    Echoes start final next later c goal := by
  have file := congrArg Cell.file first
  have other := congrArg Cell.file second
  have draft := congrArg Cell.staging first
  have copy := congrArg Cell.staging second
  dsimp only [FileTree.cellAt] at file other draft copy
  cases echoes with
  | settled there canonical cell => exact .settled (file.trans there) canonical (second.trans cell)
  | level one two staging =>
    refine .level (file.trans one) (other.trans two) ?_
    rw [draft, copy]
    exact staging

/-- The report of a candidate in the second run is what it has to be after the first. -/
theorem Echoes.repeats (writes : batch.checkOnly = false)
    (tidy : ∀ e ∈ d :: more, Tidy start e) (same : start.Resembles now)
    (aims : d.Aims start goal)
    (echoes : Echoes start (batch.process device now (d :: more)).files now again d goal) :
    Repeats (d.foretell device start (now.tree.get? goal))
      (d.foretell device start (again.tree.get? goal)) := by
  cases echoes with
  | level file other staging =>
    rw [other, ← file]
    exact .of_plan fun new planned => isObstructed_of_planned writes tidy same aims planned file
  | @settled text mode there canonical cell =>
    have later : again.tree.get? goal =
        (batch.process device now (d :: more)).files.tree.get? goal := congrArg Cell.file cell
    have plan := plan_of_isCanonical canonical device
    unfold Candidate.foretell
    rw [later, plan]
    cases readable : device.read d.path with
    | some fault =>
      rw [Candidate.plan_of_fault readable (now.tree.get? goal)]
      exact .of_plan fun new planned => by contradiction
    | none =>
      have read := Candidate.textOf_eq_ok_iff.mpr ⟨readable, mode, there⟩
      rw [Candidate.plan_eq_ok_iff.mpr ⟨text, read, rfl⟩]
      exact .of_canonical _ _

section Step

variable (writes : batch.checkOnly = false) (tidy : ∀ e ∈ d :: more, Tidy start e)
  (clear : (start.lookAtLink (stagingPath d.path)).isOk = false)
  (same : start.Resembles now) (also : start.Resembles again)

include writes tidy clear same also

/-- A file that both runs have left is left by both when it is processed. -/
theorem Echoes.step_level (aims : d.Aims start goal)
    (file : now.tree.get? goal = (batch.process device now (d :: more)).files.tree.get? goal)
    (other : again.tree.get? goal = (batch.process device now (d :: more)).files.tree.get? goal)
    (staging : Mirrors (start.tree.get? (stagingPlace goal))
      ((batch.process device now (d :: more)).files.tree.get? (stagingPlace goal))
      (now.tree.get? (stagingPlace goal)) (again.tree.get? (stagingPlace goal))) :
    Echoes start (batch.process device now (d :: more)).files
      (batch.processFile device now d).files (batch.processFile device again d).files c goal := by
  have first := tidy d List.mem_cons_self
  have one := (worked_processFile writes device first same).1.cell goal aims
  have two := (worked_processFile writes device first also).1.cell goal aims
  have level : Echoes start (batch.process device now (d :: more)).files now again c goal :=
    .level file other staging
  have equal : (again.tree.cellAt goal).file = (now.tree.cellAt goal).file :=
    other.trans file.symm
  by_cases planned : ∃ new, d.plan device (now.tree.get? goal) = .ok (some new)
  · obtain ⟨new, planned⟩ := planned
    have blocked := isObstructed_of_planned writes tidy same aims planned file
    rw [Candidate.work_of_blocked planned blocked] at one
    rw [Candidate.work_of_blocked (by rw [equal]; exact planned) blocked] at two
    cases made : start.resolve .created (stagingPath d.path) with
    | error fault =>
      rw [made] at one two
      exact level.of_cellAt one two
    | ok place =>
      have kept := first.kept_of_created made
      have absent := absent_of_clear clear kept
      rw [aims.eq_stagingPlace first.made kept] at absent
      rw [made] at one two
      have draft := congrArg Cell.staging one
      have copy := congrArg Cell.staging two
      rw [equal] at copy
      dsimp only [FileTree.cellAt] at draft copy
      refine .level ((congrArg Cell.file one).trans file) ((congrArg Cell.file two).trans other) ?_
      rw [absent] at staging ⊢
      rw [draft, copy]
      exact staging.leftover
  · have idle {cell : Cell} (same : cell.file = now.tree.get? goal) :
        d.work device start cell = cell :=
      Candidate.work_of_idle fun new plan => planned ⟨new, same ▸ plan⟩
    rw [idle rfl] at one
    rw [idle equal] at two
    exact level.of_cellAt one two

/-- Processing one more candidate in both runs keeps them side by side. -/
theorem Echoes.step (made : Candidate.ofPath? c.path = some c) (aims : c.Aims start goal)
    (echoes : Echoes start (batch.process device now (d :: more)).files now again c goal) :
    Echoes start (batch.process device now (d :: more)).files
      (batch.processFile device now d).files (batch.processFile device again d).files c goal := by
  have first := tidy d List.mem_cons_self
  have one := (worked_processFile writes device first same).1
  have two := (worked_processFile writes device first also).1
  rcases aims.or_apart d with shared | apart
  · have style := Candidate.style_eq made first.made aims.found shared.found aims.ne_directory
    cases echoes with
    | level file other staging =>
      exact step_level writes tidy clear same also shared file other staging
    | settled there canonical cell =>
      have still := congrArg Cell.file (one.cell goal shared)
      have later := two.cell goal shared
      rw [cell, work_of_isCanonical (canonical.of_style style)] at later
      rcases Candidate.file_work device start d (now.tree.cellAt goal) with
        kept | ⟨text, mode, new, -, -, written⟩
      · exact .settled (still.trans (kept.trans there)) canonical later
      · exact .settled (still.trans written) canonical later
  · exact echoes.of_cellAt (one.cellAt_eq first.made made apart aims)
      (two.cellAt_eq first.made made apart aims)

end Step

/-- A second run leaves every cell as the first one leaves it, and reports what it has to. -/
theorem echoed_process (writes : batch.checkOnly = false) (device : Device)
    {all candidates : List Candidate} (tidy : ∀ c ∈ all, Tidy start c)
    (clear : ∀ c ∈ all, (start.lookAtLink (stagingPath c.path)).isOk = false)
    (members : ∀ c ∈ candidates, c ∈ all) (same : start.Resembles now)
    (also : start.Resembles again)
    (echoes : ∀ c ∈ all, ∀ goal, c.Aims start goal →
      Echoes start (batch.process device now candidates).files now again c goal) :
    (∀ c ∈ all, ∀ goal, c.Aims start goal →
        (batch.process device again candidates).files.tree.cellAt goal =
          (batch.process device now candidates).files.tree.cellAt goal) ∧
      List.Forall₂ Repeats (batch.process device now candidates).reports
        (batch.process device again candidates).reports := by
  -- The files at the end of the first run stay the same while both move on.
  induction candidates generalizing now again with
  | nil => exact ⟨fun c member goal aims => (echoes c member goal aims).cellAt_eq, .nil⟩
  | cons d more ih =>
    have member := members d List.mem_cons_self
    have each : ∀ e ∈ d :: more, Tidy start e := fun e present => tidy e (members e present)
    obtain ⟨one, told⟩ := worked_processFile writes device (tidy d member) same
    obtain ⟨two, echoed⟩ := worked_processFile writes device (tidy d member) also
    have next := fun c present goal aims =>
      (echoes c present goal aims).step writes each (clear d member) same also
        (tidy c present).made aims
    obtain ⟨cells, reports⟩ := ih (fun e later => members e (List.mem_cons_of_mem d later))
      one.resembles two.resembles next
    refine ⟨cells, .cons ?_ reports⟩
    rw [told, echoed]
    by_cases aimed : ∃ goal, d.Aims start goal
    · obtain ⟨goal, aims⟩ := aimed
      rw [FileSystem.entry?_of_resolve (aims.of_resembles same).found,
        FileSystem.entry?_of_resolve (aims.of_resembles also).found]
      exact (echoes d member goal aims).repeats writes each same aims
    · unfold Candidate.foretell
      rw [Candidate.plan_of_lost device aimed same, Candidate.plan_of_lost device aimed also]
      exact .of_plan fun new planned => by contradiction

end Second

/-- A second run over the same candidates changes nothing. It reports every file as unchanged that
the first one reported as updated or unchanged, and every file that could not be read as the first
one did. -/
theorem repeated_process {batch : Batch} {device : Device} {files : FileSystem}
    {records : List Candidate} (writes : batch.checkOnly = false)
    (made : ∀ c ∈ records, Candidate.ofPath? c.path = some c)
    (solid : ∀ c ∈ records, ∀ target, files.lookAtLink c.path ≠ .ok (.link target))
    (clear : ∀ c ∈ records, (files.lookAtLink (stagingPath c.path)).isOk = false) :
    let first := batch.process device files records
    let second := batch.process device first.files records
    first.files.Agrees second.files ∧ List.Forall₂ Repeats first.reports second.reports := by
  intro first second
  have tidy (c : Candidate) (member : c ∈ records) : Tidy files c :=
    tidy_of_clear (made c member) (solid c member) (clear c member)
  obtain ⟨same, -⟩ := frame_process writes device tidy (.refl files)
  obtain ⟨also, frame⟩ := frame_process writes device tidy same
  have echoes (c : Candidate) (member : c ∈ records) (goal : Location)
      (aims : c.Aims files goal) : Echoes files first.files files first.files c goal := by
    rcases get?_or_isCanonical writes device tidy (.refl files) (made c member) aims with
      still | ⟨⟨text, mode, there⟩, canonical⟩
    · exact .level still.symm rfl .untouched
    · exact .settled there canonical rfl
  obtain ⟨cells, reports⟩ := echoed_process writes device tidy clear (fun c member => member)
    (.refl files) same echoes
  exact ⟨agrees_of_cellAt_eq records same also cells frame, reports⟩

/-- A file to rewrite, one that is no text, and a directory. -/
def aliasedFiles : FileSystem where
  tree := ⟨[([Utf8.encode "a.c".toList], .file (Utf8.encode "int x;\n".toList) 0o755),
    ([Utf8.encode "b.py".toList], .file [0xFF] 0o644),
    ([Utf8.encode "d".toList], .directory)]⟩
  workingDirectory := []

/-- The two files, the first one twice, and one that is missing. -/
def aliasedRecords : List Candidate :=
  [⟨.ofString "d/../a.c", .block⟩, ⟨.ofString "b.py", .sharp⟩, ⟨.ofString "c.rs", .block⟩,
    ⟨.ofString "a.c", .block⟩]

/-- A second run changes nothing, also where a file is named under two paths. -/
theorem repeated_process_aliased :
    (∀ c ∈ aliasedRecords, Candidate.ofPath? c.path = some c) ∧
      (∀ c ∈ aliasedRecords, ∀ target, aliasedFiles.lookAtLink c.path ≠ .ok (.link target)) ∧
      (∀ c ∈ aliasedRecords, (aliasedFiles.lookAtLink (stagingPath c.path)).isOk = false) ∧
      let batch : Batch := ⟨.ofString "/", false, none⟩
      let first := batch.process .reliable aliasedFiles aliasedRecords
      let second := batch.process .reliable first.files aliasedRecords
      first.files.Agrees second.files ∧ List.Forall₂ Repeats first.reports second.reports := by
  have made : ∀ c ∈ aliasedRecords, Candidate.ofPath? c.path = some c := by
    unfold aliasedRecords
    simp only [List.forall_mem_cons, List.not_mem_nil, false_implies, implies_true, and_true]
    exact ⟨by cbv, by cbv, by cbv, by cbv⟩
  have solid : ∀ c ∈ aliasedRecords, ∀ target,
      aliasedFiles.lookAtLink c.path ≠ .ok (.link target) := by
    have text : aliasedFiles.lookAtLink (.ofString "a.c") =
        .ok (.file (Utf8.encode "int x;\n".toList) 0o755) := by cbv
    have again : aliasedFiles.lookAtLink (.ofString "d/../a.c") =
        .ok (.file (Utf8.encode "int x;\n".toList) 0o755) := by cbv
    have binary : aliasedFiles.lookAtLink (.ofString "b.py") = .ok (.file [0xFF] 0o644) := by cbv
    have missing : aliasedFiles.lookAtLink (.ofString "c.rs") = .error .noEntry := by cbv
    unfold aliasedRecords
    simp [text, again, binary, missing]
  have clear : ∀ c ∈ aliasedRecords,
      (aliasedFiles.lookAtLink (stagingPath c.path)).isOk = false := by
    unfold aliasedRecords
    simp only [List.forall_mem_cons, List.not_mem_nil, false_implies, implies_true, and_true]
    exact ⟨by cbv, by cbv, by cbv, by cbv⟩
  exact ⟨made, solid, clear, repeated_process rfl made solid clear⟩

end LicenseHeader
