import LicenseHeader.Proofs.Batch.Plan

/-!
# Checking predicts writing

A run that writes nothing reports the same as one that writes and of which no write fails
(`foretold_process`). Both report the plans for the entries at the start: the one that writes
because no file is written before its turn (`process_waiting`), and the one that does not because at
most the patch file changes (`process_check`).
-/

namespace LicenseHeader

open Replacement

variable {batch : Batch} {device : Device} {start now : FileSystem} {c d : Candidate}

section Write

/-- Whether the file of a candidate waits to be processed: it is there as at the start, and no
staging file is. -/
structure Waiting (start now : FileSystem) (c : Candidate) (goal : Location) : Prop where
  /-- The location that the path names. -/
  found : start.resolve .kept c.path = .ok goal
  /-- The file there. -/
  file : ∃ content mode, now.tree.get? goal = some (.file content mode)
  /-- It is the one at the start. -/
  kept : now.tree.get? goal = start.tree.get? goal
  /-- Nothing is where its staging file goes. -/
  clear : ∀ place, start.resolve .kept (stagingPath c.path) = .ok place →
    now.tree.get? place = none

/-- A file at the start waits when no staging file is there. -/
theorem exists_waiting
    (regular : ∃ content mode, start.lookAtLink c.path = .ok (.file content mode))
    (clear : (start.lookAtLink (stagingPath c.path)).isOk = false) :
    ∃ goal, Waiting start start c goal := by
  obtain ⟨content, mode, looked⟩ := regular
  obtain ⟨goal, found, file⟩ := FileSystem.lookAtLink_eq_ok_iff.mp looked
  exact ⟨goal, found, ⟨content, mode, file⟩, rfl, fun _ staged => absent_of_clear clear staged⟩

/-- A path that names a file names no link. -/
theorem Waiting.solid {goal : Location} (waits : Waiting start now c goal)
    (same : start.Resembles now) (target : Path) :
    now.lookAtLink c.path ≠ .ok (.link target) := by
  intro there
  obtain ⟨content, mode, file⟩ := waits.file
  obtain ⟨other, found, link⟩ := FileSystem.lookAtLink_eq_ok_iff.mp there
  obtain rfl := Except.ok.inj (found.symm.trans (same.resolve_iff.mpr waits.found))
  rw [file] at link
  exact Entry.noConfusion (Option.some.inj link)

/-- The entry that is named is the one at the start. -/
theorem Waiting.entry?_eq {goal : Location} (waits : Waiting start now c goal)
    (same : start.Resembles now) : now.entry? c.path = start.entry? c.path := by
  rw [FileSystem.entry?_of_resolve waits.found,
    FileSystem.entry?_of_resolve (same.resolve_iff.mpr waits.found), waits.kept]

/-- Another file still waits when a file has changed. -/
theorem Waiting.of_changedAt {goal other : Location} {entry : Entry} {after : FileSystem}
    (waits : Waiting start now d other) (changed : now.ChangedAt after goal entry)
    (file : ∃ content mode, now.tree.get? goal = some (.file content mode))
    (apart : other ≠ goal) : Waiting start after d other where
  found := waits.found
  file := by
    rw [changed.entries, if_neg apart]
    exact waits.file
  kept := by rw [changed.entries, if_neg apart, waits.kept]
  clear place staged := by
    have absent := waits.clear place staged
    rw [changed.entries, if_neg, absent]
    rintro rfl
    obtain ⟨content, mode, there⟩ := file
    rw [absent] at there
    contradiction

/-- A plan that is not kept from being carried out is reported as if nothing could keep it. -/
theorem report_of_written {blocked : Bool} {plan : Except String (Option Text)}
    (written : (c.report blocked plan).reason ≠ some "write error") :
    c.report blocked plan = c.report false plan := by
  cases plan with
  | error reason => rfl
  | ok next =>
    cases next with
    | none => rfl
    | some new =>
      cases blocked with
      | true => exact absurd rfl written
      | false => rfl

/-- Applying the header to a waiting file does what is planned for it. -/
theorem Waiting.applied {goal : Location} (waits : Waiting start now c goal) (device : Device)
    (same : start.Resembles now) :
    Applied device now c (now.applyHeader device c.path c.style).1
      (now.applyHeader device c.path c.style).2 := by
  apply applied_applyHeader device (waits.solid same)
  intro place staged
  have absent := waits.clear place (same.resolve_iff.mp staged)
  refine ⟨FileTree.isLeaf_of_absent absent, fun found => ?_⟩
  obtain ⟨content, mode, file⟩ := waits.file
  obtain rfl := Except.ok.inj (found.symm.trans (same.resolve_iff.mpr waits.found))
  rw [absent] at file
  contradiction

/-- A waiting file is reported by its plan when its write does not fail, and no other changes. -/
theorem Waiting.step {goal : Location} (waits : Waiting start now c goal)
    (same : start.Resembles now) (writes : batch.checkOnly = false)
    (written : (Batch.reportOf c (batch.processFile device now c).result).reason ≠
      some "write error") :
    ((batch.processFile device now c).files = now ∨ ∃ content mode,
        now.ChangedAt (batch.processFile device now c).files goal (.file content mode)) ∧
      Batch.reportOf c (batch.processFile device now c).result =
        c.report false (c.plan device (start.entry? c.path)) := by
  have applied := waits.applied device same
  have told := applied.reportOf_eq
  rw [waits.entry?_eq same] at told
  rw [processFile_of_writes writes] at written ⊢
  refine ⟨?_, told.trans (report_of_written (told ▸ written))⟩
  dsimp only at written ⊢
  generalize now.applyHeader device c.path c.style = done at applied written ⊢
  obtain ⟨after, result⟩ := done
  dsimp only at applied written ⊢
  cases applied with
  | unread error failed => exact .inl rfl
  | canonical right => exact .inl rfl
  | updated planned able free made touched =>
    have staged := (able.leaf made).1
    obtain rfl := Except.ok.inj (able.found.symm.trans (same.resolve_iff.mpr waits.found))
    exact .inr ⟨_, _, touched.changedAt (waits.clear _ (same.resolve_iff.mp staged))⟩
  | refused fault planned able blocked unmade => exact absurd rfl written
  | dropped fault planned able blocked made touched => exact absurd rfl written

/-- The write of a waiting file does not fail when nothing obstructs it. -/
theorem Waiting.written_of_free {goal : Location} (waits : Waiting start now c goal)
    (same : start.Resembles now) (writes : batch.checkOnly = false)
    (free : isObstructed device start c.path = false) :
    (Batch.reportOf c (batch.processFile device now c).result).reason ≠ some "write error" := by
  have told := (waits.applied device same).reportOf_eq
  rw [isObstructed_of_resembles same, free] at told
  rw [processFile_of_writes writes, told]
  cases planned : c.plan device (now.entry? c.path) with
  | error reason =>
    intro failed
    exact Candidate.reason_ne_of_plan planned (Option.some.inj failed)
  | ok next =>
    cases next with
    | none => exact nofun
    | some new => exact nofun

/-- When a waiting file has been processed the others still wait. -/
theorem Waiting.others {goal : Location} (waits : Waiting start now c goal)
    (same : start.Resembles now) {after : FileSystem}
    (done : after = now ∨ ∃ content mode, now.ChangedAt after goal (.file content mode))
    {more : List Candidate} (rest : ∀ d ∈ more, ∃ other, Waiting start now d other)
    (beside : ∀ d ∈ more, ∀ place, start.resolve .kept c.path = .ok place →
      start.resolve .kept d.path ≠ .ok place) :
    start.Resembles after ∧ ∀ d ∈ more, ∃ other, Waiting start after d other := by
  rcases done with rfl | ⟨content, mode, changed⟩
  · exact ⟨same, rest⟩
  · obtain ⟨old, bits, file⟩ := waits.file
    have alike := changed.alike (FileTree.isLeaf_of_file file)
    refine ⟨same.trans ⟨changed.rest, alike⟩, fun d member => ?_⟩
    obtain ⟨other, waiting⟩ := rest d member
    refine ⟨other, waiting.of_changedAt changed ⟨old, bits, file⟩ ?_⟩
    rintro rfl
    exact beside d member other waits.found waiting.found

section Run

variable (batch : Batch) (device : Device) {candidates : List Candidate}
  (writes : batch.checkOnly = false) (same : start.Resembles now)
  (waits : ∀ c ∈ candidates, ∃ goal, Waiting start now c goal)
  (distinct : candidates.Pairwise fun c d => ∀ place,
    start.resolve .kept c.path = .ok place → start.resolve .kept d.path ≠ .ok place)

include writes same waits distinct

/-- Files that wait are reported by the plans for their entries at the start when no write fails. -/
theorem process_waiting (written : ∀ report ∈ (batch.process device now candidates).reports,
      report.reason ≠ some "write error") :
    (batch.process device now candidates).reports =
      candidates.map fun c => c.report false (c.plan device (start.entry? c.path)) := by
  induction candidates generalizing now with
  | nil => rfl
  | cons c more ih =>
    obtain ⟨beside, rest⟩ := List.pairwise_cons.mp distinct
    obtain ⟨goal, first⟩ := waits c List.mem_cons_self
    obtain ⟨done, told⟩ := first.step same writes (written _ List.mem_cons_self)
    obtain ⟨next, others⟩ := first.others same done
      (fun d member => waits d (List.mem_cons_of_mem c member)) beside
    have reports := ih next others rest fun report member =>
      written report (List.mem_cons_of_mem _ member)
    rw [List.map_cons, ← told, ← reports]
    rfl

/-- No write fails when nothing obstructs any. -/
theorem written_of_free (free : ∀ c ∈ candidates, isObstructed device start c.path = false) :
    ∀ report ∈ (batch.process device now candidates).reports,
      report.reason ≠ some "write error" := by
  induction candidates generalizing now with
  | nil => exact nofun
  | cons c more ih =>
    obtain ⟨beside, rest⟩ := List.pairwise_cons.mp distinct
    obtain ⟨goal, first⟩ := waits c List.mem_cons_self
    have written := first.written_of_free same writes (free c List.mem_cons_self)
    obtain ⟨next, others⟩ := first.others same (first.step same writes written).1
      (fun d member => waits d (List.mem_cons_of_mem c member)) beside
    intro report member
    rcases List.mem_cons.mp member with rfl | later
    · exact written
    · exact ih next others rest (fun d present => free d (List.mem_cons_of_mem c present))
        report later

end Run

end Write

section Check

/-- Whether a location is that of the file to which patches are added. -/
def Batch.SavesAt (batch : Batch) (files : FileSystem) (place : Location) : Prop :=
  ∃ output ∈ batch.patches, ∃ saved ∈ output.saved, files.resolve .created saved = .ok place

/-- Whether at most the file to which patches are added has changed. -/
structure Spared (batch : Batch) (start now : FileSystem) : Prop where
  /-- Nothing but files differs. -/
  resembles : start.Resembles now
  /-- Every other location has the entry that it had. -/
  entries : ∀ place, ¬ batch.SavesAt start place → now.tree.get? place = start.tree.get? place

/-- Adding to the file to which patches are added changes this alone. -/
theorem Spared.append (spared : Spared batch start now) {output : PatchOutput} {path : Path}
    (sent : batch.patches = some output) (aim : output.saved = some path) {more : Bytes}
    {after : FileSystem} (appended : now.append path more = .ok after) :
    Spared batch start after := by
  obtain ⟨place, old, mode, made, -, changed⟩ := FileSystem.alter_eq_ok appended
  have still : now.Resembles after := ⟨changed.rest, (FileSystem.alike_of_alter appended).1⟩
  refine ⟨spared.resembles.trans still, fun other elsewhere => ?_⟩
  have apart : other ≠ place := by
    rintro rfl
    exact elsewhere ⟨output, sent, path, aim, spared.resembles.resolve_iff.mp made⟩
  rw [changed.entries, if_neg apart, spared.entries other elsewhere]

/-- Saving a patch, whether or not this fails, changes at most the file to which patches are
added. -/
theorem Spared.record (spared : Spared batch start now) {output : PatchOutput}
    (sent : batch.patches = some output) (device : Device) (patch : Text) :
    Spared batch start (output.record device now patch).files := by
  unfold PatchOutput.record
  cases aim : output.saved with
  | none => exact spared
  | some path =>
    cases opened : device.opened path (now.append path []) with
    | error fault =>
      simp only [opened]
      exact spared
    | ok begun =>
      have first := spared.append sent aim (Device.opened_eq_ok opened).2
      cases appended : begun.append path (device.portion path (Utf8.encode patch)) with
      | error fault =>
        simp only [opened, Attempt.ofWriting_of_error appended]
        exact first
      | ok after =>
        simp only [opened, Attempt.ofWriting_of_ok appended]
        exact first.append sent aim appended

/-- Checking a file changes at most the file to which patches are added. -/
theorem Spared.checkFile (spared : Spared batch start now) :
    Spared batch start (batch.checkFile device now c).files := by
  unfold Batch.checkFile
  cases now.readText device c.path with
  | error error => exact spared
  | ok text =>
    dsimp only
    cases normalize c.style text with
    | none => exact spared
    | some new =>
      unfold Batch.sendPatch
      cases sent : batch.patches with
      | none => exact spared
      | some output => exact spared.record sent device _

/-- A run that writes nothing reports the plans for the entries at the start. -/
theorem process_check (batch : Batch) (device : Device) {candidates : List Candidate}
    (checks : batch.checkOnly = true) (spared : Spared batch start now)
    (regular : ∀ c ∈ candidates, ∃ content mode, start.lookAtLink c.path = .ok (.file content mode))
    (aside : ∀ c ∈ candidates, ∀ place, start.resolve .kept c.path = .ok place →
      ¬ batch.SavesAt start place) :
    Spared batch start (batch.process device now candidates).files ∧
      (batch.process device now candidates).reports =
        candidates.map fun c => c.report false (c.plan device (start.entry? c.path)) := by
  induction candidates generalizing now with
  | nil => exact ⟨spared, rfl⟩
  | cons c more ih =>
    obtain ⟨content, mode, looked⟩ := regular c List.mem_cons_self
    obtain ⟨goal, found, file⟩ := FileSystem.lookAtLink_eq_ok_iff.mp looked
    have there := spared.resembles.resolve_iff.mpr found
    have kept := spared.entries goal (aside c List.mem_cons_self goal found)
    have solid (target : Path) : now.lookAtLink c.path ≠ .ok (.link target) := by
      rw [FileSystem.lookAtLink_eq_ok_iff.mpr ⟨goal, there, kept.trans file⟩]
      simp
    have step : batch.processFile device now c = batch.checkFile device now c :=
      processFile_of_checks checks
    have told := reportOf_checkFile batch device solid
    rw [FileSystem.entry?_of_resolve there, kept, ← FileSystem.entry?_of_resolve found,
      ← step] at told
    have next : Spared batch start (batch.processFile device now c).files :=
      step ▸ spared.checkFile
    obtain ⟨rest, reports⟩ := ih next
      (fun d member => regular d (List.mem_cons_of_mem c member))
      fun d member => aside d (List.mem_cons_of_mem c member)
    refine ⟨rest, ?_⟩
    rw [List.map_cons, ← told, ← reports]
    rfl

end Check

/-- A run that writes nothing reports the same as one that writes, when each candidate leads to a
file of its own, no staging file is there before, the patch file is none of the files, and no write
fails. It leaves the files as they are and changes at most the patch file. -/
theorem foretold_process {batch : Batch} {device : Device} {files : FileSystem}
    {records : List Candidate}
    (regular : ∀ c ∈ records, ∃ content mode, files.lookAtLink c.path = .ok (.file content mode))
    (distinct : records.Pairwise fun c d => ∀ place,
      files.resolve .kept c.path = .ok place → files.resolve .kept d.path ≠ .ok place)
    (clear : ∀ c ∈ records, (files.lookAtLink (stagingPath c.path)).isOk = false)
    (aside : ∀ c ∈ records, ∀ place, files.resolve .kept c.path = .ok place →
      ¬ batch.SavesAt files place)
    (written : ∀ report ∈ (Batch.process { batch with checkOnly := false } device files
      records).reports, report.reason ≠ some "write error") :
    let checked := Batch.process { batch with checkOnly := true } device files records
    checked.reports =
        (Batch.process { batch with checkOnly := false } device files records).reports ∧
      (∀ c ∈ records, checked.files.lookAtLink c.path = files.lookAtLink c.path) ∧
      ∀ place, ¬ batch.SavesAt files place →
        checked.files.tree.get? place = files.tree.get? place := by
  intro checked
  have waits (c : Candidate) (member : c ∈ records) : ∃ goal, Waiting files files c goal :=
    exists_waiting (regular c member) (clear c member)
  have wrote := process_waiting { batch with checkOnly := false } device rfl (.refl files) waits
    distinct written
  obtain ⟨spared, told⟩ := process_check { batch with checkOnly := true } device rfl
    ⟨.refl files, fun _ _ => rfl⟩ regular aside
  refine ⟨told.trans wrote.symm, fun c member => ?_, spared.entries⟩
  obtain ⟨content, mode, looked⟩ := regular c member
  obtain ⟨goal, found, file⟩ := FileSystem.lookAtLink_eq_ok_iff.mp looked
  rw [looked]
  exact FileSystem.lookAtLink_eq_ok_iff.mpr ⟨goal, spared.resembles.resolve_iff.mpr found,
    (spared.entries goal (aside c member goal found)).trans file⟩

/-- A file to rewrite, one that is no text, and a file for patches. -/
def patchedFiles : FileSystem where
  tree := ⟨[([Utf8.encode "a.c".toList], .file (Utf8.encode "int x;\n".toList) 0o755),
    ([Utf8.encode "b.py".toList], .file [0xFF] 0o644),
    ([Utf8.encode "out.patch".toList], .file [] 0o644)]⟩
  workingDirectory := []

/-- The first two files. -/
def patchedRecords : List Candidate :=
  [⟨.ofString "a.c", .block⟩, ⟨.ofString "b.py", .sharp⟩]

/-- Patches are shown and saved. -/
def patchingBatch : Batch := ⟨.ofString "/", true, some ⟨true, some (.ofString "out.patch")⟩⟩

/-- The paths of the files are different single names, and none is that of the patch file. -/
theorem isOneName_patched : (∀ c ∈ patchedRecords, FileSystem.IsOneName c.path) ∧
    (patchedRecords.Pairwise fun c d => c.path.bytes ≠ d.path.bytes) ∧
    ∀ c ∈ patchedRecords, c.path.bytes ≠ Utf8.encode "out.patch".toList := by
  decide +kernel

/-- A run that writes is foretold for a file to rewrite and one that is no text, also when patches
are saved. -/
theorem foretold_process_patched :
    (∀ c ∈ patchedRecords, ∃ content mode,
        patchedFiles.lookAtLink c.path = .ok (.file content mode)) ∧
      (patchedRecords.Pairwise fun c d => ∀ place,
        patchedFiles.resolve .kept c.path = .ok place →
          patchedFiles.resolve .kept d.path ≠ .ok place) ∧
      (∀ c ∈ patchedRecords, (patchedFiles.lookAtLink (stagingPath c.path)).isOk = false) ∧
      (∀ c ∈ patchedRecords, ∀ place, patchedFiles.resolve .kept c.path = .ok place →
        ¬ patchingBatch.SavesAt patchedFiles place) ∧
      (∀ report ∈ (Batch.process { patchingBatch with checkOnly := false } .reliable patchedFiles
        patchedRecords).reports, report.reason ≠ some "write error") ∧
      let checked := Batch.process { patchingBatch with checkOnly := true } .reliable patchedFiles
        patchedRecords
      checked.reports = (Batch.process { patchingBatch with checkOnly := false } .reliable
          patchedFiles patchedRecords).reports ∧
        (∀ c ∈ patchedRecords, checked.files.lookAtLink c.path = patchedFiles.lookAtLink c.path) ∧
        ∀ place, ¬ patchingBatch.SavesAt patchedFiles place →
          checked.files.tree.get? place = patchedFiles.tree.get? place := by
  obtain ⟨single, different, other⟩ := isOneName_patched
  have regular : ∀ c ∈ patchedRecords, ∃ content mode,
      patchedFiles.lookAtLink c.path = .ok (.file content mode) := by
    have text : patchedFiles.lookAtLink (.ofString "a.c") =
        .ok (.file (Utf8.encode "int x;\n".toList) 0o755) := by cbv
    have binary : patchedFiles.lookAtLink (.ofString "b.py") = .ok (.file [0xFF] 0o644) := by cbv
    unfold patchedRecords
    simp [text, binary]
  have distinct : patchedRecords.Pairwise fun c d => ∀ place,
      patchedFiles.resolve .kept c.path = .ok place →
        patchedFiles.resolve .kept d.path ≠ .ok place :=
    different.imp_of_mem fun first second other =>
      FileSystem.resolve_ne_of_isOneName rfl (single _ first) (single _ second) other
  have clear : ∀ c ∈ patchedRecords,
      (patchedFiles.lookAtLink (stagingPath c.path)).isOk = false := by
    unfold patchedRecords
    simp only [List.forall_mem_cons, List.not_mem_nil, false_implies, implies_true, and_true]
    exact ⟨by cbv, by cbv⟩
  have aside : ∀ c ∈ patchedRecords, ∀ place, patchedFiles.resolve .kept c.path = .ok place →
      ¬ patchingBatch.SavesAt patchedFiles place := by
    have patch : patchedFiles.resolve .created (.ofString "out.patch") =
        .ok [Utf8.encode "out.patch".toList] := by cbv
    rintro c member goal found ⟨_, ⟨⟩, _, ⟨⟩, made⟩
    rw [FileSystem.resolve_of_isOneName (single c member) rfl] at found
    rw [patch] at made
    exact other c member (List.singleton_inj.mp
      ((Except.ok.inj found).trans (Except.ok.inj made).symm))
  have free : ∀ c ∈ patchedRecords, isObstructed .reliable patchedFiles c.path = false := by
    unfold patchedRecords
    simp only [List.forall_mem_cons, List.not_mem_nil, false_implies, implies_true, and_true]
    exact ⟨by cbv, by cbv⟩
  have written := written_of_free { patchingBatch with checkOnly := false } .reliable rfl
    (.refl patchedFiles) (fun c member => exists_waiting (regular c member) (clear c member))
    distinct free
  exact ⟨regular, distinct, clear, aside, written,
    foretold_process regular distinct clear aside written⟩

end LicenseHeader
