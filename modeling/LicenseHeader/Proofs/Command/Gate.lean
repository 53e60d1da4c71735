import LicenseHeader.Command.Run
import LicenseHeader.Proofs.Batch.Stale
import LicenseHeader.Proofs.Command.Arguments

/-!
# What a check promises

Up to the selection of files a run is a function of its arguments and the files, whether it writes
or not (`Run.prepare`). So a check that ends with status zero has seen every file that the run
without it would write to, and found its header; one that was not stopped before ends with status
one exactly when a listed file is stale (`Run.sound_check`).
-/

namespace LicenseHeader.Run

/-- What a run knows before it looks at the files to process. -/
structure Prepared where
  /-- The root of the workspace. -/
  root : Path
  /-- What is excluded. -/
  exclusion : Exclusion
  /-- The paths that the source lists. -/
  paths : List Path

/-- What a run finds out before it looks at the files to process, or why it is stopped. -/
def prepare (environment : Environment) (arguments : Arguments) (files : FileSystem) :
    Except Failure Prepared :=
  let directory := FileSystem.pathOf files.workingDirectory
  let start := (arguments.root.map directory.join).getD directory
  match Workspace.resolve files start (!arguments.noRepository) with
  | .error error => .error (error.failure.during "Failed to resolve workspace")
  | .ok workspace =>
    match Config.forRun files arguments.config environment.config workspace.root
        arguments.noConfig with
    | .error (path, error) => .error (Config.loadFailure path error)
    | .ok config =>
      let patterns := (config.map (·.exclude)).getD [] ++ arguments.exclude
      match Exclusion.ofSources workspace.root patterns with
      | .error error => .error ⟨error.message, [error.cause.message]⟩
      | .ok exclusion =>
        match (source arguments directory workspace).list files with
        | .error error => .error (error.failure.during "Failed to enumerate files")
        | .ok paths => .ok ⟨workspace.root, exclusion, paths⟩

variable {environment : Environment} {arguments : Arguments} {files : FileSystem}
  {words : List Bytes}

/-- A run without patches is stopped, or goes on with the selection from the listed paths. -/
theorem ofArguments_eq (unpatched : patchOutput arguments = none) :
    ofArguments environment arguments files =
      match prepare environment arguments files with
      | .error failure => stopped files failure
      | .ok ready => onSelection environment arguments ⟨ready.root, arguments.check, none⟩ files
          (Selection.ofPaths files ready.exclusion ready.paths) := by
  unfold ofArguments prepare
  dsimp only
  cases Workspace.resolve files _ (!arguments.noRepository) with
  | error error => rfl
  | ok workspace =>
    dsimp only
    cases Config.forRun files arguments.config environment.config workspace.root
        arguments.noConfig with
    | error failure => rfl
    | ok config =>
      unfold inWorkspace
      rw [unpatched]
      dsimp only [startPatches]
      cases Exclusion.ofSources workspace.root _ with
      | error error => rfl
      | ok exclusion =>
        dsimp only
        cases (source arguments (FileSystem.pathOf files.workingDirectory) workspace).list
            files with
        | error error => rfl
        | ok paths => rfl

/-- The run for a command line that is right and asks for no patches. -/
theorem ofWords_eq (given : Arguments.parse words = .ok arguments)
    (unpatched : patchOutput arguments = none) :
    ofWords environment words files =
      match prepare environment arguments files with
      | .error failure => stopped files failure
      | .ok ready => onSelection environment arguments ⟨ready.root, arguments.check, none⟩ files
          (Selection.ofPaths files ready.exclusion ready.paths) := by
  unfold ofWords
  rw [given]
  exact ofArguments_eq unpatched

/-- A run that saves no report leaves the files as processing does, and ends with status one only
when a check found something. -/
theorem onSelection_of_unreported (unreported : arguments.report = none) (batch : Batch)
    (selection : Selection) :
    let done := batch.processSelection environment.device files selection
    let outcome := onSelection environment arguments batch files selection
    outcome.files = done.files ∧ outcome.status =
      if (arguments.check && !(Groups.ofReports done.reports).updated.isEmpty) = true then 1
      else 0 := by
  unfold onSelection saveReport
  simp only [unreported]
  split <;> exact ⟨rfl, rfl⟩

/-- A check that is not stopped changes nothing, and ends with status zero exactly when no target
needs its header, and else with status one. -/
theorem onSelection_of_check (environment : Environment) (files : FileSystem)
    (asked : arguments.check = true) (unreported : arguments.report = none) (ready : Prepared) :
    let selection := Selection.ofPaths files ready.exclusion ready.paths
    let outcome := onSelection environment arguments ⟨ready.root, arguments.check, none⟩ files
      selection
    outcome.files = files ∧ (outcome.status = 0 ∨ outcome.status = 1) ∧
      (outcome.status = 0 ↔ ∀ c ∈ selection.targets, ¬ c.IsBare environment.device files) := by
  intro selection outcome
  let batch : Batch := ⟨ready.root, arguments.check, none⟩
  obtain ⟨same, status⟩ := onSelection_of_unreported unreported batch selection
  have unchanged : (batch.process environment.device files selection.targets).files = files :=
    (process_of_silent asked rfl).1
  refine ⟨same.trans unchanged, ?_⟩
  rw [← Selection.updated_isEmpty_of_silent (show batch.checkOnly = true from asked) rfl]
  change outcome.status = _ at status
  rw [status, asked, Bool.true_and]
  cases (Groups.ofReports (batch.processSelection environment.device files
    selection).reports).updated.isEmpty <;> simp

/-- A run that writes ends with status zero when it is not stopped, and changes nothing when no
target needs its header. -/
theorem onSelection_of_write (writes : arguments.check = false)
    (unreported : arguments.report = none) (ready : Prepared)
    (settled : ∀ c ∈ (Selection.ofPaths files ready.exclusion ready.paths).targets,
      ¬ c.IsBare environment.device files) :
    let outcome := onSelection environment arguments ⟨ready.root, arguments.check, none⟩ files
      (Selection.ofPaths files ready.exclusion ready.paths)
    outcome.status = 0 ∧ outcome.files = files := by
  intro outcome
  let batch : Batch := ⟨ready.root, arguments.check, none⟩
  obtain ⟨same, status⟩ := onSelection_of_unreported unreported batch
    (Selection.ofPaths files ready.exclusion ready.paths)
  have unchanged := (process_of_settled (show batch.checkOnly = false from writes) settled).1
  refine ⟨status.trans ?_, same.trans unchanged⟩
  rw [writes, Bool.false_and]
  rfl

/-- A check that is not stopped ends with status one exactly when a target is stale, and otherwise
with status zero. -/
theorem status_onSelection_iff (environment : Environment) (files : FileSystem)
    (asked : arguments.check = true) (unreported : arguments.report = none) (ready : Prepared) :
    let selection := Selection.ofPaths files ready.exclusion ready.paths
    let outcome := onSelection environment arguments ⟨ready.root, arguments.check, none⟩ files
      selection
    (outcome.status = 1 ↔
      ∃ c ∈ selection.targets, IsStale environment.device files ready.exclusion c.path) ∧
    (outcome.status = 0 ↔
      ¬ ∃ c ∈ selection.targets, IsStale environment.device files ready.exclusion c.path) := by
  intro selection outcome
  obtain ⟨-, either, passes⟩ := onSelection_of_check environment files asked unreported ready
  have zero : outcome.status = 0 ↔
      ¬ ∃ c ∈ selection.targets, IsStale environment.device files ready.exclusion c.path := by
    rw [passes]
    constructor
    · rintro settled ⟨c, target, stale⟩
      exact settled c target ((Selection.isStale_iff target).mp stale)
    · intro fresh c target bare
      exact fresh ⟨c, target, (Selection.isStale_iff target).mpr bare⟩
  refine ⟨?_, zero⟩
  rcases either with passed | failed
  · have fresh := zero.mp passed
    rw [passed]
    exact ⟨fun absurdity => absurd absurdity Nat.zero_ne_one, fun stale => absurd stale fresh⟩
  · have stale := mt zero.mpr (failed ▸ Nat.one_ne_zero)
    exact ⟨fun _ => Classical.not_not.mp stale, fun _ => failed⟩

/-- A check, of a command line that asks neither for patches nor for a report, changes nothing. When
it ends with status zero, the run without the word for a check does so too and changes nothing. When
it is not stopped before it looks at the files, it ends with status one exactly when a target is
stale, and otherwise with status zero; a target is stale exactly when a listed file is. -/
theorem sound_check (environment : Environment) (files : FileSystem)
    (given : Arguments.parse words = .ok arguments)
    (unpatched : arguments.showPatch = false ∧ arguments.savePatch = none)
    (unreported : arguments.report = none) :
    let checked := ofWords environment (Flag.checkWord :: words) files
    let written := ofWords environment words files
    checked.files = files ∧
      (checked.status = 0 → written.status = 0 ∧ written.files = files) ∧
      ∀ asked ready, Arguments.parse (Flag.checkWord :: words) = .ok asked →
        prepare environment asked files = .ok ready →
          let targets := (Selection.ofPaths files ready.exclusion ready.paths).targets
          let IsStaleHere := IsStale environment.device files ready.exclusion
          (checked.status = 1 ↔ ∃ c ∈ targets, IsStaleHere c.path) ∧
          (checked.status = 0 ↔ ¬ ∃ c ∈ targets, IsStaleHere c.path) ∧
          (environment.device.ReadsAlike ready.paths →
            ((∃ c ∈ targets, IsStaleHere c.path) ↔ ∃ path ∈ ready.paths, IsStaleHere path)) := by
  intro checked written
  rcases Arguments.parse_check given with ⟨writes, asks⟩ | wrong
  · have silent : patchOutput arguments = none := by
      unfold patchOutput
      rw [writes]
      rfl
    have silently : patchOutput arguments.checking = none := by
      unfold patchOutput Arguments.checking PatchOutput.isEnabled
      simp [unpatched]
    have checks : checked = _ := ofWords_eq asks silently
    have goes : written = _ := ofWords_eq given silent
    -- What a run finds out does not depend on whether it writes.
    have same : prepare environment arguments.checking files =
      prepare environment arguments files := rfl
    rw [same] at checks
    cases prepared : prepare environment arguments files with
    | error failure =>
      rw [prepared] at checks
      rw [checks]
      refine ⟨rfl, fun passed => absurd passed Nat.one_ne_zero, ?_⟩
      intro asked ready again known
      rw [asks] at again
      obtain rfl := Except.ok.inj again
      rw [same, prepared] at known
      contradiction
    | ok ready =>
      rw [prepared] at checks goes
      obtain ⟨unchanged, -, passes⟩ := onSelection_of_check environment files
        (show arguments.checking.check = true from rfl) unreported ready
      rw [checks]
      refine ⟨unchanged, fun passed => ?_, ?_⟩
      · rw [goes]
        exact onSelection_of_write writes unreported ready (passes.mp passed)
      · intro asked known again settled
        rw [asks] at again
        obtain rfl := Except.ok.inj again
        rw [same, prepared] at settled
        obtain rfl := Except.ok.inj settled
        obtain ⟨one, zero⟩ := status_onSelection_iff environment files
          (show arguments.checking.check = true from rfl) unreported ready
        exact ⟨one, zero, Selection.exists_stale_iff⟩
  · -- The command line asks for a check itself, and cannot do so twice.
    have stops : checked = ⟨files, [], usageLines, 2⟩ := by
      unfold checked ofWords
      rw [wrong]
    rw [stops]
    refine ⟨rfl, fun passed => absurd passed (Nat.succ_ne_zero 1), ?_⟩
    intro asked ready again
    rw [wrong] at again
    contradiction

/-- An environment that says nothing. -/
def plainEnvironment : Environment where
  config := none
  log := none
  colours := ⟨none, none, none⟩
  now := ""
  elapsed := ⟨0⟩
  device := .reliable

/-- A file without its header, and one with it. -/
def halfHeaded : FileSystem where
  tree := ⟨[([Utf8.encode "a.c".toList], .file (Utf8.encode "int x;\n".toList) 0o644),
    ([Utf8.encode "b.c".toList],
      .file (Utf8.encode (Style.block.header ++ "int x;\n".toList)) 0o644)]⟩
  workingDirectory := []

/-- The arguments for one file in a plain directory. -/
def forFile (name : String) : Arguments :=
  { Arguments.empty with noRepository := true, paths := [.ofString name] }

/-- What a run knows about one file in a plain directory. -/
def readyFor (name : String) : Prepared :=
  ⟨.ofString "/", ⟨.ofString "/", []⟩, [.ofString name]⟩

/-- A device reads one path alike. -/
theorem readsAlike_single (device : Device) (path : Path) : device.ReadsAlike [path] := by
  intro p first q second _
  rw [List.mem_singleton.mp first, List.mem_singleton.mp second]

/-- The file without its header is stale. -/
theorem isStale_halfHeaded :
    IsStale .reliable halfHeaded ⟨.ofString "/", []⟩ (.ofString "/a.c") where
  regular := ⟨Utf8.encode "int x;\n".toList, 0o644, by cbv⟩
  included := rfl
  bare := ⟨.block, "int x;\n".toList, by cbv, by cbv, by decide +kernel⟩

/-- The file with its header is not stale. -/
theorem not_isStale_halfHeaded :
    ¬ IsStale .reliable halfHeaded ⟨.ofString "/", []⟩ (.ofString "/b.c") := by
  intro stale
  obtain ⟨style, text, styled, read, missing⟩ := stale.bare
  have block : Style.ofPath? (.ofString "/b.c") = some .block := by cbv
  obtain rfl : Style.block = style := Option.some.inj (block.symm.trans styled)
  have content : halfHeaded.readText .reliable (.ofString "/b.c") =
      .ok (Style.block.header ++ "int x;\n".toList) := by
    cbv
  obtain rfl := Except.ok.inj (content.symm.trans read)
  revert missing
  decide +kernel

/-- The command line for one file in a plain directory. -/
def wordsFor (name : String) : List Bytes := [Ascii.bytes "--no-git", Ascii.bytes name]

/-- The command lines for the two files ask for these. -/
theorem parse_wordsFor : Arguments.parse (wordsFor "a.c") = .ok (forFile "a.c") ∧
    Arguments.parse (wordsFor "b.c") = .ok (forFile "b.c") :=
  ⟨by cbv, by cbv⟩

/-- With the word for a check in front they ask for a check. -/
theorem parse_check_wordsFor :
    Arguments.parse (Flag.checkWord :: wordsFor "a.c") = .ok (forFile "a.c").checking ∧
      Arguments.parse (Flag.checkWord :: wordsFor "b.c") = .ok (forFile "b.c").checking :=
  ⟨by cbv, by cbv⟩

/-- Checks of the two files are not stopped. -/
theorem prepare_halfHeaded :
    prepare plainEnvironment (forFile "a.c").checking halfHeaded = .ok (readyFor "/a.c") ∧
      prepare plainEnvironment (forFile "b.c").checking halfHeaded = .ok (readyFor "/b.c") :=
  ⟨by cbv, by cbv⟩

/-- A check of a file without its header ends with status one, and after a check of a file with its
header the run without the word for a check changes nothing. -/
theorem sound_check_halfHeaded :
    (ofWords plainEnvironment (Flag.checkWord :: wordsFor "a.c") halfHeaded).status = 1 ∧
      (ofWords plainEnvironment (Flag.checkWord :: wordsFor "b.c") halfHeaded).status = 0 ∧
      (ofWords plainEnvironment (wordsFor "b.c") halfHeaded).files = halfHeaded := by
  obtain ⟨-, -, stale⟩ :=
    sound_check plainEnvironment halfHeaded parse_wordsFor.1 ⟨rfl, rfl⟩ rfl
  obtain ⟨-, kept, fresh⟩ :=
    sound_check plainEnvironment halfHeaded parse_wordsFor.2 ⟨rfl, rfl⟩ rfl
  obtain ⟨one, -, some⟩ := stale _ _ parse_check_wordsFor.1 prepare_halfHeaded.1
  obtain ⟨-, zero, none⟩ := fresh _ _ parse_check_wordsFor.2 prepare_halfHeaded.2
  have failed := one.mpr ((some (readsAlike_single _ _)).mpr
    ⟨_, List.mem_singleton_self _, isStale_halfHeaded⟩)
  have passed := zero.mpr fun target => by
    obtain ⟨path, listed, found⟩ := (none (readsAlike_single _ _)).mp target
    exact not_isStale_halfHeaded (List.mem_singleton.mp listed ▸ found)
  exact ⟨failed, passed, (kept passed).2⟩

end LicenseHeader.Run
