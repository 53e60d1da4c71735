import LicenseHeader.Proofs.Batch.Stale

/-!
# The report of each candidate

Candidates are processed one after the other, each in the files that those before it leave
(`Batch.process_append`), and each of them has one report, at its place in the order
(`Batch.paths_process`, `Batch.getElem?_process`). A file is reported as unchanged exactly when it
has the header, since rebuilding a text without the header always gives another text
(`unchanged_iff_hasHeader`).
-/

namespace LicenseHeader

namespace Batch

/-- Candidates are processed one part after the other. -/
theorem process_append (batch : Batch) (device : Device) (files : FileSystem)
    (first second : List Candidate) :
    batch.process device files (first ++ second) =
      let done := batch.process device files first
      let rest := batch.process device done.files second
      ⟨rest.files, done.notices ++ rest.notices, done.reports ++ rest.reports⟩ := by
  induction first generalizing files with
  | nil => rfl
  | cons c more ih =>
    rw [List.cons_append, process, process, ih]
    simp only [List.append_assoc, List.cons_append]

/-- A report has the path of its candidate. -/
theorem path_reportOf (c : Candidate) (result : Except ApplyError Bool) :
    (reportOf c result).path = c.path := by
  cases result with
  | error error => rfl
  | ok made => cases made <;> rfl

/-- Each candidate has one report, in the order of the candidates. -/
theorem paths_process (batch : Batch) (device : Device) (files : FileSystem)
    (candidates : List Candidate) :
    (batch.process device files candidates).reports.map (·.path) = candidates.map (·.path) := by
  induction candidates generalizing files with
  | nil => rfl
  | cons c more ih =>
    rw [process, List.map_cons, List.map_cons, ih, path_reportOf]

/-- No candidate that is processed is reported as skipped. -/
theorem action_process_ne (batch : Batch) (device : Device) (files : FileSystem)
    (candidates : List Candidate) :
    ∀ report ∈ (batch.process device files candidates).reports, report.action ≠ .ignored := by
  induction candidates generalizing files with
  | nil => intro report member; contradiction
  | cons c more ih =>
    intro report member
    rcases List.mem_cons.mp member with rfl | later
    · cases (batch.processFile device files c).result with
      | error error => simp [reportOf, Report.because]
      | ok made => cases made <;> simp [reportOf, Report.plain]
    · exact ih _ report later

/-- The report of a candidate tells what processing it does to the files that the candidates before
it leave. -/
theorem getElem?_process (batch : Batch) (device : Device) (files : FileSystem)
    (before after : List Candidate) (c : Candidate) :
    let reached := (batch.process device files before).files
    (batch.process device files (before ++ c :: after)).reports[before.length]? =
      some (reportOf c (batch.processFile device reached c).result) := by
  intro reached
  have paths := congrArg List.length (paths_process batch device files before)
  have length : (batch.process device files before).reports.length = before.length := by
    simpa using paths
  rw [process_append]
  dsimp only
  rw [List.getElem?_append_right (Nat.le_of_eq length), length, Nat.sub_self]
  rfl

/-- A report tells of an unchanged file exactly when nothing had to be written. -/
theorem unchanged_reportOf_iff (c : Candidate) (result : Except ApplyError Bool) :
    (reportOf c result).action = .unchanged ↔ result = .ok false := by
  cases result with
  | error error => simp [reportOf, Report.because]
  | ok made => cases made <;> simp [reportOf, Report.plain]

end Batch

/-- Nothing has to be written to a file exactly when it is text with the header, whether the batch
writes or not. -/
theorem result_processFile_iff (batch : Batch) (device : Device) (files : FileSystem)
    (c : Candidate) : (batch.processFile device files c).result = .ok false ↔
      ∃ text, files.readText device c.path = .ok text ∧ HasHeader c.style text := by
  have found : (batch.processFile device files c).result = .ok false ↔
      ∃ text, files.readText device c.path = .ok text ∧ normalize c.style text = none := by
    cases checks : batch.checkOnly with
    | true =>
      rw [processFile_of_checks checks]
      unfold Batch.checkFile
      cases files.readText device c.path with
      | error error => simp
      | ok text => cases made : normalize c.style text <;> simp [made]
    | false =>
      rw [processFile_of_writes checks]
      unfold FileSystem.applyHeader
      cases files.readText device c.path with
      | error error => simp
      | ok text =>
        cases made : normalize c.style text with
        | none => simp [made]
        | some new =>
          cases replaced : (files.replaceText device c.path new).2 <;>
            simp [made, replaced, Except.map]
  simp only [found, normalize_eq_none_iff]

/-- The path of the file that an error is about. -/
def ApplyError.path : ApplyError → Path
  | decode path _ => path
  | read path _ => path
  | write path _ => path

/-- An error in reading a text is about the file. -/
theorem path_of_readText {device : Device} {files : FileSystem} {path : Path} {error : ApplyError}
    (failed : files.readText device path = .error error) : error.path = path := by
  unfold FileSystem.readText at failed
  split at failed
  · rw [← Except.error.inj failed]
    rfl
  · split at failed
    · rw [← Except.error.inj failed]
      rfl
    · contradiction

/-- An error in processing a file is about the file. -/
theorem path_of_processFile {batch : Batch} {device : Device} {files : FileSystem} {c : Candidate}
    {error : ApplyError} (failed : (batch.processFile device files c).result = .error error) :
    error.path = c.path := by
  cases checks : batch.checkOnly with
  | true =>
    rw [processFile_of_checks checks] at failed
    unfold Batch.checkFile at failed
    cases read : files.readText device c.path with
    | error fault =>
      rw [read] at failed
      exact Except.error.inj failed ▸ path_of_readText read
    | ok text =>
      rw [read] at failed
      cases made : normalize c.style text <;> simp [made] at failed
  | false =>
    rw [processFile_of_writes checks] at failed
    unfold FileSystem.applyHeader at failed
    cases read : files.readText device c.path with
    | error fault =>
      rw [read] at failed
      exact Except.error.inj failed ▸ path_of_readText read
    | ok text =>
      rw [read] at failed
      cases made : normalize c.style text with
      | none => simp [made] at failed
      | some new =>
        simp only [made] at failed
        unfold FileSystem.replaceText at failed
        cases fault : (Replacement.replace device files c.path (Utf8.encode new)).fault with
        | none => simp [fault, Except.map] at failed
        | some why =>
          simp only [fault, Except.map] at failed
          exact Except.error.inj failed ▸ rfl

namespace Batch

/-- The warning that the header could not be applied to a file. -/
def skipWarning (error : ApplyError) : Notice :=
  .warning ("Skipping (" ++ error.reason ++ "): " ++ error.message)

/-- Of each file that is reported as failed a warning is told, which gives the reason in the report
and is about the file. -/
theorem exists_warning (batch : Batch) (device : Device) (files : FileSystem)
    (candidates : List Candidate) :
    ∀ report ∈ (batch.process device files candidates).reports, report.action = .failed →
      ∃ error : ApplyError, error.path = report.path ∧ report.reason = some error.reason ∧
        skipWarning error ∈ (batch.process device files candidates).notices := by
  induction candidates generalizing files with
  | nil => intro report member; contradiction
  | cons c more ih =>
    intro report member action
    rw [process] at member ⊢
    rcases List.mem_cons.mp member with rfl | later
    · cases result : (batch.processFile device files c).result with
      | error error =>
        refine ⟨error, path_of_processFile result, rfl, ?_⟩
        exact List.mem_append_left _ (List.mem_append_right _ List.mem_cons_self)
      | ok made =>
        rw [result] at action
        cases made <;> contradiction
    · obtain ⟨error, path, reason, told⟩ := ih _ report later action
      exact ⟨error, path, reason, List.mem_append_right _ told⟩

end Batch

/-- A text has no other normal form exactly when it has the header: whatever body is kept of a text
without it, what is rebuilt is never the text as it was. So a file is reported as unchanged, at its
place in any batch, exactly when it is text with the header when its turn comes. -/
theorem unchanged_iff_hasHeader :
    (∀ style text, (normalize style text = none ↔ HasHeader style text) ∧
      (∀ body, HasHeader style text ∨
        (Preamble.split style text).1.compose style.header body ≠ text) ∧
      normalize style text ≠ some text) ∧
    ∀ (batch : Batch) (device : Device) (files : FileSystem) (before after : List Candidate)
      (c : Candidate),
      let reached := (batch.process device files before).files
      ∃ report,
        (batch.process device files (before ++ c :: after)).reports[before.length]? = some report ∧
        report.path = c.path ∧
        (report.action = .unchanged ↔
          ∃ text, reached.readText device c.path = .ok text ∧ HasHeader c.style text) := by
  constructor
  · intro style text
    refine ⟨normalize_eq_none_iff, fun body => ?_, fun same => ?_⟩
    · rw [hasHeader_iff]
      exact Classical.or_iff_not_imp_left.mpr (compose_ne body)
    · obtain ⟨missing, made⟩ := normalize_eq_some_iff.mp same
      exact compose_ne _ missing made.symm
  · intro batch device files before after c reached
    refine ⟨_, Batch.getElem?_process batch device files before after c,
      Batch.path_reportOf c _, ?_⟩
    rw [Batch.unchanged_reportOf_iff, result_processFile_iff]

end LicenseHeader
