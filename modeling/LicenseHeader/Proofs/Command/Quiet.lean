import LicenseHeader.Proofs.Command.Failures
import LicenseHeader.Proofs.Path.Shown
import LicenseHeader.Proofs.Report.Groups

/-!
# What a quiet run prints

A quiet run prints the paths of the files that were updated, or have to be, one on a line and in the
order of the paths, and nothing else (`Run.prints_updated`): whatever happened to other files,
whether it writes or checks, and whatever is logged or reported.
-/

namespace LicenseHeader

/-- The text of lines that are made from a list. -/
theorem Console.text_map {α : Type} (line : α → String) (list : List α) :
    text (list.map line) = String.join (list.map fun a => line a ++ "\n") := by
  unfold text
  rw [List.map_map]
  rfl

namespace Run

variable {environment : Environment} {arguments : Arguments} {files : FileSystem}
  {words : List Bytes}

/-- A quiet run that is not stopped prints the paths of the updated files in their order, each as it
is listed below the root and with a line feed behind it. -/
theorem prints_updated (files : FileSystem) (given : Arguments.parse words = .ok arguments)
    (silent : arguments.quiet = true) {run : Underway}
    (reached : setOut environment arguments files = .ok run) :
    let reports := (run.done environment).reports
    let updated := Groups.group reports .updated
    Console.text (ofWords environment words files).output =
        String.join (updated.map fun report => report.path.shown (some run.batch.root) ++ "\n") ∧
      updated.Perm (reports.filter (·.action = .updated)) ∧
      updated.Pairwise (fun a b => a.path.le b.path = true) ∧
      ∀ report ∈ updated,
        Path.Shows run.batch.root report.path (report.path.shown (some run.batch.root)) := by
  intro reports updated
  have sorts := Groups.sorts_group reports .updated
  refine ⟨?_, sorts.members, sorts.ordered, ?_⟩
  · rw [ofWords_of_setOut given reached,
      output_of_quiet silent (Arguments.verbose_of_quiet given silent), Console.text_map]
    rfl
  · intro report _
    exact Path.shows_shown run.batch.root report.path

/-- The arguments for a quiet check of a file. -/
def forQuietCheck : Arguments := { (forFile "a.c").checking with quiet := true }

/-- The check of the file. -/
def staleRun : Underway := { hinderedRun with batch := ⟨.ofString "/", true, none⟩ }

/-- The file is reported as one that has to be updated. -/
theorem reports_staleRun : (staleRun.done plainEnvironment).reports =
    [.plain ⟨.ofString "/a.c", .block⟩ .updated] := by
  obtain ⟨read, made⟩ := bare_hindered
  have checked : (staleRun.batch.processFile .reliable hinderedFiles
      ⟨.ofString "/a.c", .block⟩).result = .ok true := by
    unfold Batch.processFile Batch.checkFile
    rw [if_pos (show staleRun.batch.checkOnly = true from rfl), read]
    dsimp only
    rw [made]
  have run : staleRun.done plainEnvironment =
      staleRun.batch.processSelection .reliable hinderedFiles hinderedRun.selection := rfl
  rw [run, selection_hindered]
  unfold Batch.processSelection Batch.process Batch.process
  dsimp only
  rw [checked]
  rfl

/-- A quiet check of the file prints its path. -/
theorem prints_updated_checked :
    let words := [Ascii.bytes "-q", Flag.checkWord] ++ wordsFor "a.c"
    Arguments.parse words = .ok forQuietCheck ∧ forQuietCheck.quiet = true ∧
      setOut plainEnvironment forQuietCheck hinderedFiles = .ok staleRun ∧
      Console.text (ofWords plainEnvironment words hinderedFiles).output = "a.c\n" := by
  intro words
  have given : Arguments.parse words = .ok forQuietCheck := by cbv
  have reached : setOut plainEnvironment forQuietCheck hinderedFiles = .ok staleRun := by cbv
  have group : Groups.group [.plain ⟨.ofString "/a.c", .block⟩ .updated] .updated =
      [.plain ⟨.ofString "/a.c", .block⟩ .updated] := by
    simp [Groups.group, Report.plain]
  obtain ⟨printed, -⟩ := prints_updated hinderedFiles given rfl reached
  rw [reports_staleRun, group] at printed
  have shown : (Path.ofString "/a.c").shown (some (.ofString "/")) = "a.c" := by cbv
  refine ⟨given, rfl, reached, printed.trans ?_⟩
  change String.join [(Path.ofString "/a.c").shown (some (.ofString "/")) ++ "\n"] = "a.c\n"
  rw [shown]
  rfl

end Run

end LicenseHeader
