import LicenseHeader.Proofs.Command.Failures
import LicenseHeader.Proofs.Report.Groups

/-!
# What a run lists

Of the lines that a run prints those about single files start with a blank. On a console that is not
quiet they are a row for every updated file, a row with the reason for every failed one, and rows
for the first of the files that have the header already, with the number of those that are left out
(`Run.tallies_and_lists`). The groups behind them hold every report once, and the summary counts
them.
-/

namespace LicenseHeader.Run

/-- The lines of a listing that start with a blank are the rows of the groups. -/
theorem filter_listing {screen : Console} (loud : screen.verbosity ≠ .quiet) (root : Path)
    (check : Bool) (groups : Groups) :
    (listing screen root check groups).filter Console.isIndented =
      groups.updated.map (Console.row (some root)) ++ groups.failed.map (failureRow root) ++
        ((groups.unchanged.take (screen.shownCount groups.unchanged.length)).map
          (Console.row (some root)) ++ screen.leftOut groups.unchanged.length) := by
  have gap : screen.gap.filter Console.isIndented = [] := screen.outdented_gap.filter_eq
  have updated := Console.filter_updated loud (some root) groups.updated check
  have failed := Console.filter_failed loud (some root) groups.failed
  have unchanged := Console.filter_unchanged loud (some root) groups.unchanged
  -- A group that is empty has no part in the listing, and no rows.
  have behind : (if groups.failed.isEmpty then []
      else screen.gap ++ screen.failed (some root) groups.failed).filter Console.isIndented =
      groups.failed.map (failureRow root) := by
    cases empty : groups.failed.isEmpty with
    | true =>
      rw [List.isEmpty_iff.mp empty]
      rfl
    | false =>
      rw [if_neg Bool.false_ne_true, List.filter_append, gap, failed]
      rfl
  unfold listing
  rw [List.filter_append]
  congr 1
  · cases none : groups.updated.isEmpty && groups.failed.isEmpty with
    | true =>
      obtain ⟨fresh, fine⟩ := Bool.and_eq_true_iff.mp none
      rw [if_pos rfl, screen.outdented_allDone.filter_eq, List.isEmpty_iff.mp fresh,
        List.isEmpty_iff.mp fine]
      rfl
    | false => rw [if_neg Bool.false_ne_true, List.filter_append, updated, behind]
  · cases empty : groups.unchanged.isEmpty with
    | true =>
      rw [if_pos rfl, ← unchanged, List.isEmpty_iff.mp empty]
      rfl
    | false =>
      rw [if_neg Bool.false_ne_true, List.filter_append, gap, unchanged]
      rfl

variable {environment : Environment} {arguments : Arguments} {files : FileSystem}
  {words : List Bytes}

/-- A run with flags for more output, or without the one for less, prints to a console that is not
quiet. -/
theorem verbosity_ne_quiet (environment : Environment) (loud : arguments.quiet = false) :
    (console environment arguments).verbosity ≠ .quiet := by
  unfold console
  rw [loud]
  dsimp only
  split <;> simp

/-- A file that could not be processed is reported with a reason. -/
theorem exists_reason (run : Underway) (environment : Environment) {report : Report}
    (member : report ∈ (run.done environment).reports) (failed : report.action = .failed) :
    ∃ reason, report.reason = some reason := by
  have processed := mem_reports_of_ne member (by rw [failed]; simp)
  obtain ⟨error, -, reason, -⟩ :=
    run.batch.exists_warning environment.device run.files _ report processed failed
  exact ⟨error.reason, reason⟩

/-- The groups and the counts of any reports agree, and a run that is not quiet and not stopped
lists its groups: of its lines those that start with a blank are a row for each updated file, a row
for each failed file with its reason, and a row for each of the first twenty files that have the
header already, or for all when it is verbose, and then how many are left out. -/
theorem tallies_and_lists :
    (∀ reports elapsed,
      Groups.Tallies reports (Groups.ofReports reports) (Summary.ofReports reports elapsed)) ∧
    ∀ (environment : Environment) (files : FileSystem) (words : List Bytes)
      (arguments : Arguments) (run : Underway),
      Arguments.parse words = .ok arguments → arguments.quiet = false →
      setOut environment arguments files = .ok run →
      let groups := Groups.ofReports (run.done environment).reports
      let shown (report : Report) := report.path.shown (some run.batch.root)
      let count := groups.unchanged.length
      let listed := if 0 < arguments.verbose then count else min count 20
      (ofWords environment words files).output.filter Console.isIndented =
          groups.updated.map (fun report => "  " ++ shown report) ++
          groups.failed.map (fun report =>
            "  " ++ shown report ++ " (" ++ report.reason.getD "unknown error" ++ ")") ++
          (groups.unchanged.take listed).map (fun report => "  " ++ shown report) ++
          (if listed = count then []
            else ["  " ++ (console environment arguments).paint .dimmed "" ++ " ... and " ++
              toString (count - listed) ++ " more (use -v to see all)"]) ∧
        ∀ report ∈ groups.failed, ∃ reason, report.reason = some reason := by
  refine ⟨Groups.tallies_ofReports, ?_⟩
  intro environment files words arguments run given loud reached groups shown count listed
  have visible := verbosity_ne_quiet environment loud
  have verbose : (console environment arguments).verbosity = .verbose ↔ 0 < arguments.verbose := by
    unfold console
    rw [loud]
    dsimp only
    split <;> simp_all
  have limit : (console environment arguments).shownCount count = listed := by
    unfold Console.shownCount listed
    simp only [verbose]
    rfl
  constructor
  · obtain ⟨before, after, printed, first, last, -⟩ := exists_output environment arguments
      run.files run.batch run.selection
    have rows := filter_listing visible run.batch.root arguments.check groups
    rw [ofWords_of_setOut given reached, printed, List.filter_append, List.filter_append,
      first.filter_eq, last.filter_eq, List.nil_append, List.append_nil]
    refine rows.trans ?_
    unfold Console.leftOut
    rw [limit, ← List.append_assoc]
    rfl
  · intro report member
    obtain ⟨made, failed⟩ := mem_group_iff.mp member
    exact exists_reason run environment made failed

/-- The run that finds a file which cannot be replaced prints one row, with the reason. -/
theorem tallies_and_lists_hindered :
    Arguments.parse (wordsFor "a.c") = .ok (forHindered false) ∧
      (forHindered false).quiet = false ∧
      setOut plainEnvironment (forHindered false) hinderedFiles = .ok hinderedRun ∧
      (ofWords plainEnvironment (wordsFor "a.c") hinderedFiles).output.filter
        Console.isIndented = ["  a.c (write error)"] := by
  obtain ⟨rows, -⟩ := tallies_and_lists.2 plainEnvironment hinderedFiles (wordsFor "a.c")
    (forHindered false) hinderedRun parse_hindered.1 rfl (setOut_hindered false)
  have groups : Groups.ofReports [hinderedReport] = ⟨[], [], [hinderedReport], []⟩ := by
    simp [Groups.ofReports, Groups.group, hinderedReport, Report.because]
  have shown : (Path.ofString "/a.c").shown (some (.ofString "/")) = "a.c" := by cbv
  rw [done_hindered] at rows
  dsimp only at rows
  rw [groups] at rows
  refine ⟨parse_hindered.1, rfl, setOut_hindered false, rows.trans ?_⟩
  simp [hinderedReport, hinderedRun, Report.because, shown]

end LicenseHeader.Run
