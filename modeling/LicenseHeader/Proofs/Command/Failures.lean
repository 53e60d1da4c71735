import LicenseHeader.Proofs.Batch.Atomic
import LicenseHeader.Proofs.Batch.Reports
import LicenseHeader.Proofs.Batch.Truthful
import LicenseHeader.Proofs.Command.Gate
import LicenseHeader.Proofs.Console.Indent

/-!
# Where failures are told

A run that is not stopped processes a selection (`Run.ofArguments_eq_setOut`), and a file that could
not be processed can be told of in two places: in the listing, and by a warning on the standard
error output. Which of them is used depends on how much is to be printed. `Run.tells_failures` says
that it is both or none: a quiet run lists only what was updated, and logs nothing below an error.
-/

namespace LicenseHeader.Run

/-- What a run processes, once nothing can stop it. -/
structure Underway where
  /-- How files are processed. -/
  batch : Batch
  /-- The files, with the patch file begun if there is one. -/
  files : FileSystem
  /-- What is excluded. -/
  exclusion : Exclusion
  /-- The paths that the source lists. -/
  paths : List Path

/-- The files that a run processes, and those that it skips. -/
def Underway.selection (run : Underway) : Selection :=
  Selection.ofPaths run.files run.exclusion run.paths

/-- What processing the files of a run does. -/
def Underway.done (run : Underway) (environment : Environment) : BatchOutcome :=
  run.batch.processSelection environment.device run.files run.selection

/-- What a run in a workspace processes, or how it is stopped. -/
def setOutIn (environment : Environment) (arguments : Arguments) (files : FileSystem)
    (workspace : Workspace) (patterns : List String) : Except RunOutcome Underway :=
  let patches := patchOutput arguments
  match startPatches environment.device files patches with
  | .error failure => .error (stopped files failure)
  | .ok files =>
    match Exclusion.ofSources workspace.root patterns with
    | .error error => .error (stopped files ⟨error.message, [error.cause.message]⟩)
    | .ok exclusion =>
      let directory := FileSystem.pathOf files.workingDirectory
      match (source arguments directory workspace).list files with
      | .error error =>
        .error (stopped files (error.failure.during "Failed to enumerate files"))
      | .ok paths => .ok ⟨⟨workspace.root, arguments.check, patches⟩, files, exclusion, paths⟩

/-- What a run processes, or how it is stopped. -/
def setOut (environment : Environment) (arguments : Arguments) (files : FileSystem) :
    Except RunOutcome Underway :=
  let directory := FileSystem.pathOf files.workingDirectory
  let start := (arguments.root.map directory.join).getD directory
  match Workspace.resolve files start (!arguments.noRepository) with
  | .error error => .error (stopped files (error.failure.during "Failed to resolve workspace"))
  | .ok workspace =>
    match Config.forRun files arguments.config environment.config workspace.root
        arguments.noConfig with
    | .error (path, error) => .error (stopped files (Config.loadFailure path error))
    | .ok config =>
      setOutIn environment arguments files workspace
        ((config.map (·.exclude)).getD [] ++ arguments.exclude)

variable {environment : Environment} {arguments : Arguments} {files : FileSystem}
  {words : List Bytes}

/-- A run in a workspace is stopped, or goes on with its selection. -/
theorem inWorkspace_eq_setOutIn (workspace : Workspace) (patterns : List String) :
    inWorkspace environment arguments files workspace patterns =
      match setOutIn environment arguments files workspace patterns with
      | .error outcome => outcome
      | .ok run => onSelection environment arguments run.batch run.files run.selection := by
  unfold inWorkspace setOutIn
  dsimp only
  cases startPatches environment.device files (patchOutput arguments) with
  | error failure => rfl
  | ok begun =>
    dsimp only
    cases Exclusion.ofSources workspace.root patterns with
    | error error => rfl
    | ok exclusion =>
      dsimp only
      cases (source arguments (FileSystem.pathOf begun.workingDirectory) workspace).list begun with
      | error error => rfl
      | ok paths => rfl

/-- A run is stopped, or goes on with its selection. -/
theorem ofArguments_eq_setOut : ofArguments environment arguments files =
    match setOut environment arguments files with
    | .error outcome => outcome
    | .ok run => onSelection environment arguments run.batch run.files run.selection := by
  unfold ofArguments setOut
  dsimp only
  cases Workspace.resolve files _ (!arguments.noRepository) with
  | error error => rfl
  | ok workspace =>
    dsimp only
    cases Config.forRun files arguments.config environment.config workspace.root
        arguments.noConfig with
    | error failure => rfl
    | ok config => exact inWorkspace_eq_setOutIn workspace _

/-- The run for a command line that is right goes on with its selection once it has set out. -/
theorem ofWords_of_setOut (given : Arguments.parse words = .ok arguments) {run : Underway}
    (reached : setOut environment arguments files = .ok run) :
    ofWords environment words files =
      onSelection environment arguments run.batch run.files run.selection := by
  unfold ofWords
  rw [given]
  dsimp only
  rw [ofArguments_eq_setOut, reached]

section Told

variable {screen : Console} {root : Path} {check : Bool} {reports : List Report}

/-- A quiet console prints no lines but those for updated files. -/
theorem unlessQuiet_of_quiet (silent : screen.verbosity = .quiet) (lines : List String) :
    screen.unlessQuiet lines = [] := if_pos silent

/-- The row for a file that could not be processed. -/
def failureRow (root : Path) (report : Report) : String :=
  "  " ++ Console.listed (some root) report ++ " (" ++ report.reason.getD "unknown error" ++ ")"

/-- A report is in the group of its action. -/
theorem mem_group_iff {report : Report} {action : Action} :
    report ∈ Groups.group reports action ↔ report ∈ reports ∧ report.action = action := by
  unfold Groups.group
  rw [List.mem_mergeSort, List.mem_filter, decide_eq_true_eq]

/-- A console that is not quiet lists every file that could not be processed. -/
theorem failureRow_mem_listing (loud : screen.verbosity ≠ .quiet) {report : Report}
    (member : report ∈ reports) (failed : report.action = .failed) :
    failureRow root report ∈ listing screen root check (Groups.ofReports reports) := by
  have grouped : report ∈ (Groups.ofReports reports).failed := mem_group_iff.mpr ⟨member, failed⟩
  have filled : (Groups.ofReports reports).failed.isEmpty = false :=
    List.isEmpty_eq_false_iff.mpr (List.ne_nil_of_mem grouped)
  have row : failureRow root report ∈
      screen.failed (some root) (Groups.ofReports reports).failed := by
    unfold Console.failed Console.unlessQuiet
    rw [filled, if_neg Bool.false_ne_true, if_neg loud]
    exact List.mem_cons_of_mem _ (List.mem_map_of_mem grouped)
  unfold listing
  rw [filled, Bool.and_false, if_neg Bool.false_ne_true, if_neg Bool.false_ne_true]
  exact List.mem_append_left _ (List.mem_append_right _ (List.mem_append_right _ row))

/-- A quiet console lists the paths of the files that were updated, or have to be. -/
theorem listing_of_quiet (silent : screen.verbosity = .quiet) (groups : Groups) :
    listing screen root check groups = groups.updated.map (Console.listed (some root)) := by
  unfold listing Console.allDone Console.updated Console.failed Console.unchanged Console.gap
  simp only [unlessQuiet_of_quiet silent, if_pos silent, ite_self, List.append_nil]
  cases groups.updated with
  | nil => cases groups.failed <;> rfl
  | cons report more => rfl

end Told

/-- The lines for what was told while files were processed, without warnings. -/
def patchLines (console : Console) : Notice → List String
  | .warning _ => []
  | .patch text => console.patchRows text

/-- The lines that tell why the report of a run could not be saved. -/
def unsavedLines (environment : Environment) (arguments : Arguments) (done : BatchOutcome) :
    List String :=
  match saveReport environment arguments (Summary.ofReports done.reports environment.elapsed)
    done.reports done.files with
  | .error failure => failure.lines
  | .ok _ => []

/-- A quiet run does not tell of a report that was saved. -/
theorem told_of_quiet (silent : (console environment arguments).verbosity = .quiet)
    {summary : Summary} {reports : List Report} {after : FileSystem} {told : List String}
    (saved : saveReport environment arguments summary reports files = .ok (after, told)) :
    told = [] := by
  unfold saveReport at saved
  split at saved
  · exact (Prod.mk.inj (Except.ok.inj saved)).2.symm
  · dsimp only at saved
    split at saved
    · rw [← (Prod.mk.inj (Except.ok.inj saved)).2]
      exact unlessQuiet_of_quiet silent _
    · contradiction

/-- What is told of a report that was saved is about no single file. -/
theorem outdented_told {summary : Summary} {reports : List Report} {after : FileSystem}
    {told : List String}
    (saved : saveReport environment arguments summary reports files = .ok (after, told)) :
    Console.Outdented told := by
  unfold saveReport at saved
  split at saved
  · rw [← (Prod.mk.inj (Except.ok.inj saved)).2]
    exact .nil
  · dsimp only at saved
    split at saved
    · rw [← (Prod.mk.inj (Except.ok.inj saved)).2]
      exact Console.outdented_info _ (Console.isIndented_append _ (by decide))
    · contradiction

/-- What a run prints: the listing, and around it lines that are about no single file and that a
quiet run does not print. -/
theorem exists_output (environment : Environment) (arguments : Arguments) (files : FileSystem)
    (batch : Batch) (selection : Selection) :
    let listed := listing (console environment arguments) batch.root arguments.check
      (Groups.ofReports (batch.processSelection environment.device files selection).reports)
    ∃ before after,
      (onSelection environment arguments batch files selection).output =
        before ++ listed ++ after ∧
      Console.Outdented before ∧ Console.Outdented after ∧
      ((console environment arguments).verbosity = .quiet → before = [] ∧ after = []) := by
  intro listed
  let screen := console environment arguments
  let done := batch.processSelection environment.device files selection
  let summary := Summary.ofReports done.reports environment.elapsed
  let before := screen.start selection.targets.length arguments.check ++ screen.gap
  let middle := screen.gap ++ screen.summary arguments.check summary
  have hidden (silent : screen.verbosity = .quiet) : before = [] ∧ middle = [] := by
    constructor <;> simp [before, middle, Console.start, Console.gap, Console.summary,
      unlessQuiet_of_quiet silent]
  have first : Console.Outdented before :=
    (screen.outdented_start _ _).append screen.outdented_gap
  have second : Console.Outdented middle :=
    screen.outdented_gap.append (screen.outdented_summary _ _)
  have arranged (more : List String) : before ++ listed ++ screen.gap ++
      screen.summary arguments.check summary ++ more = before ++ listed ++ (middle ++ more) := by
    simp only [middle, List.append_assoc]
  unfold onSelection
  dsimp only
  cases saved : saveReport environment arguments summary done.reports done.files with
  | error failure => exact ⟨before, middle, List.append_assoc _ _ _, first, second, hidden⟩
  | ok pair =>
    obtain ⟨reported, told⟩ := pair
    have untold (silent : screen.verbosity = .quiet) : told = [] := told_of_quiet silent saved
    have third : Console.Outdented told := outdented_told saved
    dsimp only
    split
    · have last : Console.Outdented (told ++ screen.gap ++ screen.hint checkHint) :=
        (third.append screen.outdented_gap).append (screen.outdented_hint (by decide))
      refine ⟨before, middle ++ (told ++ screen.gap ++ screen.hint checkHint), ?_, first,
        second.append last, fun silent => ?_⟩
      · rw [← arranged, ← List.append_assoc, ← List.append_assoc]
      · obtain ⟨none, nothing⟩ := hidden silent
        have gap : screen.gap = [] := unlessQuiet_of_quiet silent _
        have hint : screen.hint checkHint = [] := unlessQuiet_of_quiet silent _
        exact ⟨none, by rw [nothing, untold silent, gap, hint]; rfl⟩
    · refine ⟨before, middle ++ told, arranged told, first, second.append third,
        fun silent => ?_⟩
      obtain ⟨none, nothing⟩ := hidden silent
      exact ⟨none, by rw [nothing, untold silent]; rfl⟩

/-- What a run prints to the standard error output: what was told while files were processed, and
why the report could not be saved. -/
theorem errors_onSelection (environment : Environment) (arguments : Arguments)
    (files : FileSystem) (batch : Batch) (selection : Selection) :
    let done := batch.processSelection environment.device files selection
    (onSelection environment arguments batch files selection).errors =
      done.notices.flatMap (noticeLines (console environment arguments)
        (messageLog environment arguments)) ++
      unsavedLines environment arguments done := by
  intro done
  unfold onSelection unsavedLines
  dsimp only
  cases saveReport environment arguments (Summary.ofReports done.reports environment.elapsed)
      done.reports done.files with
  | error failure => rfl
  | ok saved =>
    dsimp only
    split <;> exact (List.append_nil _).symm

/-- A level admits warnings about the processing of files from that of warnings on. -/
theorem admits_warn (level : Log.Level) :
    Log.admits (Log.filterFor none level) Log.processing .warn = decide (2 ≤ level.rank) := by
  cases level <;> decide

/-- A quiet run logs no warnings. -/
theorem warning_of_quiet (unlogged : environment.log = none) (silent : arguments.quiet = true)
    (message : String) : (messageLog environment arguments).warning message = [] := by
  unfold MessageLog.warning messageLog MessageLog.ofRun
  rw [unlogged, silent, admits_warn]
  rfl

/-- Other runs log every warning. -/
theorem warning_of_loud (unlogged : environment.log = none) (loud : arguments.quiet = false)
    (message : String) : (messageLog environment arguments).warning message =
      [(messageLog environment arguments).label ++ " " ++ Log.escape message] := by
  have admitted : 2 ≤ (Log.Level.ofFlags false arguments.verbose).rank := by
    unfold Log.Level.ofFlags
    split
    · contradiction
    · split <;> decide
  unfold MessageLog.warning messageLog MessageLog.ofRun
  rw [unlogged, loud, admits_warn, decide_eq_true admitted]
  rfl

/-- A run that is not quiet tells in its listing and by a warning of a file that could not be
processed. -/
theorem tells_of_loud (unlogged : environment.log = none) (loud : arguments.quiet = false)
    {run : Underway} {report : Report} (member : report ∈ (run.done environment).reports)
    (failed : report.action = .failed) :
    let outcome := onSelection environment arguments run.batch run.files run.selection
    failureRow run.batch.root report ∈ outcome.output ∧
      ∃ error : ApplyError, error.path = report.path ∧ report.reason = some error.reason ∧
        (messageLog environment arguments).label ++ " " ++
          Log.escape ("Skipping (" ++ error.reason ++ "): " ++ error.message) ∈
            outcome.errors := by
  intro outcome
  have shown : (console environment arguments).verbosity ≠ .quiet := by
    unfold console
    rw [loud]
    dsimp only
    split <;> simp
  constructor
  · obtain ⟨before, after, printed, -, -, -⟩ := exists_output environment arguments run.files
      run.batch run.selection
    have row : failureRow run.batch.root report ∈ listing (console environment arguments)
        run.batch.root arguments.check (Groups.ofReports (run.done environment).reports) :=
      failureRow_mem_listing shown member failed
    rw [printed]
    exact List.mem_append_left _ (List.mem_append_right _ row)
  · have processed := mem_reports_of_ne member (by rw [failed]; simp)
    obtain ⟨error, path, reason, warned⟩ :=
      run.batch.exists_warning environment.device run.files _ report processed failed
    have line : (messageLog environment arguments).label ++ " " ++
        Log.escape ("Skipping (" ++ error.reason ++ "): " ++ error.message) ∈
          noticeLines (console environment arguments) (messageLog environment arguments)
            (Batch.skipWarning error) := by
      change _ ∈ (messageLog environment arguments).warning _
      rw [warning_of_loud unlogged loud]
      exact List.mem_singleton_self _
    refine ⟨error, path, reason, ?_⟩
    rw [errors_onSelection]
    exact List.mem_append_left _ (List.mem_flatMap.mpr ⟨_, warned, line⟩)

/-- A quiet run prints nothing but the paths of updated files. -/
theorem output_of_quiet (silent : arguments.quiet = true) (level : arguments.verbose = 0)
    (run : Underway) :
    (onSelection environment arguments run.batch run.files run.selection).output =
      (Groups.ofReports (run.done environment).reports).updated.map
        (Console.listed (some run.batch.root)) := by
  have quiet : (console environment arguments).verbosity = .quiet := by
    unfold console
    rw [silent, level]
    rfl
  obtain ⟨before, after, printed, -, -, bare⟩ := exists_output environment arguments run.files
    run.batch run.selection
  obtain ⟨rfl, rfl⟩ := bare quiet
  rw [List.nil_append, List.append_nil, listing_of_quiet quiet] at printed
  exact printed

/-- A quiet run prints nothing but the paths of updated files, and to the standard error output
nothing but patches and why its report could not be saved. -/
theorem tells_of_quiet (unlogged : environment.log = none) (silent : arguments.quiet = true)
    (level : arguments.verbose = 0) (run : Underway) :
    let done := run.done environment
    let outcome := onSelection environment arguments run.batch run.files run.selection
    outcome.output = (Groups.ofReports done.reports).updated.map
        (Console.listed (some run.batch.root)) ∧
      outcome.errors = done.notices.flatMap (patchLines (console environment arguments)) ++
        unsavedLines environment arguments done := by
  intro done outcome
  refine ⟨output_of_quiet silent level run, ?_⟩
  have dropped : noticeLines (console environment arguments)
      (messageLog environment arguments) = patchLines (console environment arguments) := by
    funext notice
    cases notice with
    | warning message => exact warning_of_quiet unlogged silent message
    | patch text => rfl
  have logged := errors_onSelection environment arguments run.files run.batch run.selection
  rw [dropped] at logged
  exact logged

/-- A file that could not be processed is told of twice unless the run is quiet: in the listing, and
by a warning on the standard error output. A quiet run tells of it nowhere: it prints the paths of
the files that were updated, or have to be, and to the standard error output patches and why the
report could not be saved. -/
theorem tells_failures (files : FileSystem) (given : Arguments.parse words = .ok arguments)
    (unlogged : environment.log = none) {run : Underway}
    (reached : setOut environment arguments files = .ok run) :
    let done := run.done environment
    let outcome := ofWords environment words files
    (arguments.quiet = false → ∀ report ∈ done.reports, report.action = .failed →
      failureRow run.batch.root report ∈ outcome.output ∧
      ∃ error : ApplyError, error.path = report.path ∧ report.reason = some error.reason ∧
        (messageLog environment arguments).label ++ " " ++
          Log.escape ("Skipping (" ++ error.reason ++ "): " ++ error.message) ∈ outcome.errors) ∧
    (arguments.quiet = true →
      outcome.output = (Groups.ofReports done.reports).updated.map
        (Console.listed (some run.batch.root)) ∧
      outcome.errors = done.notices.flatMap (patchLines (console environment arguments)) ++
        unsavedLines environment arguments done) := by
  intro done outcome
  have whole : outcome =
      onSelection environment arguments run.batch run.files run.selection :=
    ofWords_of_setOut given reached
  rw [whole]
  exact ⟨fun loud report member failed => tells_of_loud unlogged loud member failed,
    fun silent => tells_of_quiet unlogged silent (Arguments.verbose_of_quiet given silent) run⟩

/-- A file without its header, and a directory where its staging file goes. -/
def hinderedFiles : FileSystem where
  tree := ⟨[([Utf8.encode "a.c".toList], .file (Utf8.encode "int x;\n".toList) 0o644),
    ([Utf8.encode "a.c.hdrsync-tmp".toList], .directory)]⟩
  workingDirectory := []

/-- The arguments for a run on the file, which is quiet or is not. -/
def forHindered (quiet : Bool) : Arguments := { forFile "a.c" with quiet := quiet }

/-- The run on the file. -/
def hinderedRun : Underway where
  batch := ⟨.ofString "/", false, none⟩
  files := hinderedFiles
  exclusion := ⟨.ofString "/", []⟩
  paths := [.ofString "/a.c"]

/-- The report that the file could not be written. -/
def hinderedReport : Report := .because ⟨.ofString "/a.c", .block⟩ .failed "write error"

/-- The file is what the run processes. -/
theorem selection_hindered : hinderedRun.selection = ⟨[⟨.ofString "/a.c", .block⟩], []⟩ := by
  have candidate : Candidate.ofPath? (.ofString "/a.c") = some ⟨.ofString "/a.c", .block⟩ := by
    cbv
  have kept : SkipReason.of? hinderedFiles ⟨.ofString "/", []⟩ (.ofString "/a.c") = none := by
    cbv
  unfold Underway.selection hinderedRun Selection.ofPaths
  simp [candidate, kept, dropRepeats]

/-- The file can be read and has no header. -/
theorem bare_hindered :
    hinderedFiles.readText .reliable (.ofString "/a.c") = .ok "int x;\n".toList ∧
      normalize .block "int x;\n".toList = some (Style.block.header ++ "int x;\n".toList) :=
  ⟨by cbv, by decide +kernel⟩

/-- The file cannot be replaced, and is reported as failed. -/
theorem done_hindered : hinderedRun.done plainEnvironment =
    ⟨hinderedFiles, [Batch.skipWarning (.write (.ofString "/a.c") .isDirectory)],
      [hinderedReport]⟩ := by
  obtain ⟨read, made⟩ := bare_hindered
  have refused (text : Text) : hinderedFiles.replaceText .reliable (.ofString "/a.c") text =
      (hinderedFiles, .error (.write (.ofString "/a.c") .isDirectory)) := by
    cbv
  have processed : hinderedRun.batch.processFile .reliable hinderedFiles
      ⟨.ofString "/a.c", .block⟩ =
        ⟨hinderedFiles, [], .error (.write (.ofString "/a.c") .isDirectory)⟩ := by
    rw [processFile_of_writes rfl, FileSystem.applyHeader_of_normalize read made, refused]
    rfl
  have run : hinderedRun.done plainEnvironment =
      hinderedRun.batch.processSelection .reliable hinderedFiles hinderedRun.selection := rfl
  rw [run, selection_hindered]
  unfold Batch.processSelection Batch.process Batch.process
  rw [processed]
  rfl

/-- Both runs set out. -/
theorem setOut_hindered (quiet : Bool) :
    setOut plainEnvironment (forHindered quiet) hinderedFiles = .ok hinderedRun := by
  cases quiet
  · cbv
  · cbv

/-- The command lines for the two runs. -/
theorem parse_hindered :
    Arguments.parse (wordsFor "a.c") = .ok (forHindered false) ∧
      Arguments.parse (Ascii.bytes "-q" :: wordsFor "a.c") = .ok (forHindered true) :=
  ⟨by cbv, by cbv⟩

/-- The file that cannot be replaced is told of by a run that is not quiet. -/
theorem tells_failures_hindered :
    hinderedReport ∈ (hinderedRun.done plainEnvironment).reports ∧
      hinderedReport.action = .failed ∧
      failureRow (.ofString "/") hinderedReport ∈
        (ofWords plainEnvironment (wordsFor "a.c") hinderedFiles).output ∧
      failureRow (.ofString "/") hinderedReport = "  a.c (write error)" := by
  have member : hinderedReport ∈ (hinderedRun.done plainEnvironment).reports := by
    rw [done_hindered]
    exact List.mem_singleton_self _
  obtain ⟨loud, -⟩ := tells_failures hinderedFiles parse_hindered.1 rfl (setOut_hindered false)
  exact ⟨member, rfl, (loud rfl _ member rfl).1, by cbv⟩

/-- The file that cannot be replaced is told of nowhere by a quiet run, which ends with status
zero. -/
theorem silent_hindered :
    setOut plainEnvironment (forHindered true) hinderedFiles = .ok hinderedRun ∧
      hinderedReport ∈ (hinderedRun.done plainEnvironment).reports ∧
      hinderedReport.action = .failed ∧
      let outcome := ofWords plainEnvironment (Ascii.bytes "-q" :: wordsFor "a.c") hinderedFiles
      outcome.output = [] ∧ outcome.errors = [] ∧ outcome.status = 0 := by
  have member : hinderedReport ∈ (hinderedRun.done plainEnvironment).reports := by
    rw [done_hindered]
    exact List.mem_singleton_self _
  obtain ⟨printed, logged⟩ := tells_of_quiet (show plainEnvironment.log = none from rfl)
    (show (forHindered true).quiet = true from rfl) rfl hinderedRun
  have status : (onSelection plainEnvironment (forHindered true) hinderedRun.batch
      hinderedRun.files hinderedRun.selection).status = _ :=
    (onSelection_of_unreported (show (forHindered true).report = none from rfl) _ _).2
  rw [done_hindered] at printed logged
  have none : (Groups.ofReports [hinderedReport]).updated = [] := by
    simp [Groups.ofReports, Groups.group, hinderedReport, Report.because]
  refine ⟨setOut_hindered true, member, rfl, ?_⟩
  rw [ofWords_of_setOut parse_hindered.2 (setOut_hindered true)]
  exact ⟨printed.trans (congrArg _ none), logged, status⟩

end LicenseHeader.Run
