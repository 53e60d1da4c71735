import LicenseHeader.Proofs.Command.Failures

/-!
# What a run that is stopped has changed

A run can be stopped by its workspace, its configuration, its patch file, its patterns or its
source. Of its steps up to there only one changes files: the patch file is emptied, before the
patterns are read and the files are listed. So a run that is stopped leaves the files as they are
exactly when it has not come to this step, or the patch file was empty (`Run.stopped_agrees_iff`).
-/

namespace LicenseHeader

/-- Writing to a file changes nothing exactly when the file is there with this content. -/
theorem FileSystem.agrees_of_write_iff {files after : FileSystem} {path : Path} {content : Bytes}
    (written : files.write path content = .ok after) :
    files.Agrees after ↔ ∃ mode, files.lookAt path = .ok (.file content mode) := by
  obtain ⟨place, old, mode, made, origin, changed⟩ := alter_eq_ok written
  have found := resolve_of_created made
  have looked : ∀ bits, files.lookAt path = .ok (.file content bits) ↔
      files.tree.get? place = some (.file content bits) := by
    intro bits
    unfold lookAt
    rw [found]
    simp only [bind, Except.bind]
    cases files.tree.get? place with
    | none => simp [throw, throwThe, MonadExceptOf.throw]
    | some entry => simp [pure, Except.pure]
  simp only [looked]
  constructor
  · intro same
    exact ⟨mode, (same.entries place).symm.trans changed.there⟩
  · rintro ⟨bits, there⟩
    refine ⟨changed.rest, fun other => ?_⟩
    rw [changed.entries]
    by_cases here : other = place
    · -- The bits written are those of the file that was there.
      rcases origin with file | ⟨absent, -, -⟩
      · obtain ⟨-, rfl⟩ := Entry.file.inj (Option.some.inj (file.symm.trans there))
        rw [if_pos here, here, there]
      · rw [absent] at there
        contradiction
    · rw [if_neg here]

namespace Run

/-- Where a run looks for its workspace. -/
def startPath (arguments : Arguments) (files : FileSystem) : Path :=
  let directory := FileSystem.pathOf files.workingDirectory
  (arguments.root.map directory.join).getD directory

/-- Whether a run comes to begin its patch file and leaves the given files then: its workspace and
its configuration are found, and it is a check that saves patches at a path where a file can be
opened and written. -/
structure Begins (environment : Environment) (arguments : Arguments) (files : FileSystem)
    (path : Path) (after : FileSystem) : Prop where
  /-- The workspace is found, and its configuration read. -/
  prepared : ∃ workspace config,
    Workspace.resolve files (startPath arguments files) (!arguments.noRepository) =
        .ok workspace ∧
      Config.forRun files arguments.config environment.config workspace.root
        arguments.noConfig = .ok config
  /-- It is a check. -/
  checks : arguments.check = true
  /-- It saves patches. -/
  saves : arguments.savePatch = some path
  /-- The device opens the patch file. -/
  opens : environment.device.opening path = none
  /-- The patch file is emptied, or made. -/
  written : files.write path [] = .ok after

variable {environment : Environment} {arguments : Arguments} {files : FileSystem}
  {words : List Bytes} {outcome : RunOutcome}

/-- A check that saves patches empties its patch file if this opens. -/
theorem startPatches_of_saves {path : Path} (device : Device) (checks : arguments.check = true)
    (saves : arguments.savePatch = some path) :
    (startPatches device files (patchOutput arguments)).toOption =
      (device.opened path (files.write path [])).toOption := by
  unfold patchOutput PatchOutput.isEnabled
  simp only [checks, saves, Option.isSome_some, Bool.or_true, Bool.and_true, ↓reduceIte]
  unfold startPatches PatchOutput.start
  dsimp only
  cases device.opened path (files.write path []) <;> rfl

/-- Other runs have no patch file to empty. -/
theorem startPatches_of_other (device : Device)
    (other : ∀ path, ¬ (arguments.check = true ∧ arguments.savePatch = some path)) :
    startPatches device files (patchOutput arguments) = .ok files := by
  unfold patchOutput
  dsimp only
  split
  next enabled =>
    have checks : arguments.check = true := (Bool.and_eq_true_iff.mp enabled).1
    cases saved : arguments.savePatch with
    | none => rfl
    | some path => exact absurd ⟨checks, saved⟩ (other path)
  · rfl

/-- A run in a workspace that is stopped leaves the files with the patch file begun, or as they were
when this failed. -/
theorem files_of_setOutIn {workspace : Workspace} {patterns : List String}
    (reached : setOutIn environment arguments files workspace patterns = .error outcome) :
    (∃ failure, outcome = stopped outcome.files failure) ∧
      outcome.files =
        (startPatches environment.device files (patchOutput arguments)).toOption.getD files := by
  unfold setOutIn at reached
  dsimp only at reached
  cases start : startPatches environment.device files (patchOutput arguments) with
  | error failure =>
    rw [start] at reached
    obtain rfl := Except.error.inj reached
    exact ⟨⟨failure, rfl⟩, rfl⟩
  | ok begun =>
    rw [start] at reached
    dsimp only at reached
    split at reached
    · obtain rfl := Except.error.inj reached
      exact ⟨⟨_, rfl⟩, rfl⟩
    · split at reached
      · obtain rfl := Except.error.inj reached
        exact ⟨⟨_, rfl⟩, rfl⟩
      · contradiction

/-- A run whose workspace and configuration are found goes on in the workspace. -/
theorem setOut_of_prepared {workspace : Workspace} {config : Option Config}
    (resolved : Workspace.resolve files (startPath arguments files) (!arguments.noRepository) =
      .ok workspace)
    (configured : Config.forRun files arguments.config environment.config workspace.root
      arguments.noConfig = .ok config) :
    setOut environment arguments files = setOutIn environment arguments files workspace
      ((config.map (·.exclude)).getD [] ++ arguments.exclude) := by
  unfold startPath at resolved
  unfold setOut
  dsimp only at resolved ⊢
  rw [resolved]
  dsimp only
  rw [configured]

/-- A run that is stopped leaves the files as it has begun the patch file, if it has, and else as
they were. -/
theorem files_of_setOut (reached : setOut environment arguments files = .error outcome) :
    (∃ failure, outcome = stopped outcome.files failure) ∧
      (∀ path after, Begins environment arguments files path after → outcome.files = after) ∧
      ((∀ path after, ¬ Begins environment arguments files path after) →
        outcome.files = files) := by
  cases resolved : Workspace.resolve files (startPath arguments files)
      (!arguments.noRepository) with
  | error error =>
    have stops : setOut environment arguments files =
        .error (stopped files (error.failure.during "Failed to resolve workspace")) := by
      unfold startPath at resolved
      unfold setOut
      dsimp only at resolved ⊢
      rw [resolved]
    obtain rfl := Except.error.inj (stops.symm.trans reached)
    refine ⟨⟨_, rfl⟩, fun path after begins => ?_, fun _ => rfl⟩
    obtain ⟨workspace, config, found, -⟩ := begins.prepared
    rw [resolved] at found
    contradiction
  | ok workspace =>
    cases configured : Config.forRun files arguments.config environment.config workspace.root
        arguments.noConfig with
    | error error =>
      have stops : setOut environment arguments files =
          .error (stopped files (Config.loadFailure error.1 error.2)) := by
        unfold startPath at resolved
        unfold setOut
        dsimp only at resolved ⊢
        rw [resolved]
        dsimp only
        rw [configured]
      obtain rfl := Except.error.inj (stops.symm.trans reached)
      refine ⟨⟨_, rfl⟩, fun path after begins => ?_, fun _ => rfl⟩
      obtain ⟨other, config, found, read⟩ := begins.prepared
      obtain rfl := Except.ok.inj (resolved.symm.trans found)
      rw [configured] at read
      contradiction
    | ok config =>
      rw [setOut_of_prepared resolved configured] at reached
      obtain ⟨failed, left⟩ := files_of_setOutIn reached
      refine ⟨failed, fun path after begins => ?_, fun idle => ?_⟩
      · rw [left, startPatches_of_saves _ begins.checks begins.saves, begins.written,
          Device.opened_of_opening begins.opens]
        rfl
      · rw [left]
        by_cases saving : ∃ path, arguments.check = true ∧ arguments.savePatch = some path
        · obtain ⟨path, checks, saves⟩ := saving
          rw [startPatches_of_saves _ checks saves]
          cases opened : environment.device.opened path (files.write path []) with
          | error fault => rfl
          | ok after =>
            obtain ⟨opens, written⟩ := Device.opened_eq_ok opened
            exact absurd ⟨⟨workspace, config, resolved, configured⟩, checks, saves, opens, written⟩
              (idle path after)
        · rw [startPatches_of_other _ (not_exists.mp saving)]
          rfl

/-- A run that is stopped ends with a failure. It leaves the files as they were unless it has come
to begin its patch file; then this file is emptied, or made, and nothing else has changed. So the
files are as before exactly when the patch file was not begun or was there and empty. -/
theorem stopped_agrees_iff (given : Arguments.parse words = .ok arguments)
    (reached : setOut environment arguments files = .error outcome) :
    ofWords environment words files = outcome ∧
      (∃ failure, outcome = stopped outcome.files failure) ∧
      (∀ path after, Begins environment arguments files path after → outcome.files = after) ∧
      ((∀ path after, ¬ Begins environment arguments files path after) →
        outcome.files = files) ∧
      (files.Agrees outcome.files ↔ ∀ path after, Begins environment arguments files path after →
        ∃ mode, files.lookAt path = .ok (.file [] mode)) := by
  obtain ⟨failed, begun, idle⟩ := files_of_setOut reached
  refine ⟨?_, failed, begun, idle, ?_, fun empty => ?_⟩
  · unfold ofWords
    rw [given]
    dsimp only
    rw [ofArguments_eq_setOut, reached]
  · intro same path after begins
    rw [begun path after begins] at same
    exact (FileSystem.agrees_of_write_iff begins.written).mp same
  · by_cases begins : ∃ path after, Begins environment arguments files path after
    · obtain ⟨path, after, begins⟩ := begins
      rw [begun path after begins]
      exact (FileSystem.agrees_of_write_iff begins.written).mpr (empty path after begins)
    · rw [idle fun path after begun => begins ⟨path, after, begun⟩]
      exact .refl files

/-- A patch file with some content, and a file without its header. -/
def savedFiles (content : String) : FileSystem where
  tree := ⟨[([Utf8.encode "out.patch".toList], .file (Utf8.encode content.toList) 0o600),
    ([Utf8.encode "a.c".toList], .file (Utf8.encode "int x;\n".toList) 0o644)]⟩
  workingDirectory := []

/-- The command line for a check that saves patches and has a pattern that is none. -/
def wrongPatternWords : List Bytes :=
  ["--no-git", "--check", "-o", "out.patch", "-e", "["].map Ascii.bytes

/-- The arguments of this command line. -/
def wrongPattern : Arguments :=
  { Arguments.empty with
    noRepository := true
    check := true
    savePatch := some (.ofString "out.patch")
    exclude := ["["] }

/-- Why this check is stopped. -/
def wrongPatternFailure : Failure :=
  ⟨"Invalid exclude pattern: [", ["Pattern syntax error near position 0: invalid range pattern"]⟩

/-- The command line asks for these arguments. -/
theorem parse_wrongPattern : Arguments.parse wrongPatternWords = .ok wrongPattern := by cbv

/-- The check finds its workspace, no configuration, and its patch file, which it empties. -/
structure IsSetForPatterns (files after : FileSystem) : Prop where
  /-- The workspace is found. -/
  resolved : Workspace.resolve files
    (FileSystem.pathOf files.workingDirectory) false = .ok ⟨.ofString "/", false⟩
  /-- There is no configuration. -/
  unconfigured : Config.forRun files none none (.ofString "/") false = .ok none
  /-- The patch file is emptied. -/
  written : files.write (.ofString "out.patch") [] = .ok after

/-- The patch file is emptied whether it was begun or empty. -/
theorem isSetForPatterns_savedFiles :
    IsSetForPatterns (savedFiles "old\n") (savedFiles "") ∧
      IsSetForPatterns (savedFiles "") (savedFiles "") :=
  ⟨⟨by cbv, by cbv, by cbv⟩, ⟨by cbv, by cbv, by cbv⟩⟩

/-- The check comes to begin its patch file. -/
theorem IsSetForPatterns.begins {files after : FileSystem} (set : IsSetForPatterns files after) :
    Begins plainEnvironment wrongPattern files (.ofString "out.patch") after :=
  ⟨⟨_, _, set.resolved, set.unconfigured⟩, rfl, rfl, rfl, set.written⟩

/-- The check is stopped by its pattern. -/
theorem IsSetForPatterns.setOut_eq {files after : FileSystem}
    (set : IsSetForPatterns files after) :
    setOut plainEnvironment wrongPattern files = .error (stopped after wrongPatternFailure) := by
  have start : startPatches plainEnvironment.device files (patchOutput wrongPattern) =
      .ok after := by
    have output : patchOutput wrongPattern = some ⟨false, some (.ofString "out.patch")⟩ := rfl
    rw [output]
    unfold startPatches PatchOutput.start
    simp only [Device.opened_of_opening (show plainEnvironment.device.opening _ = none from rfl),
      set.written]
  have wrong : ∃ error, Exclusion.ofSources (.ofString "/") ["["] = .error error ∧
      (⟨error.message, [error.cause.message]⟩ : Failure) = wrongPatternFailure :=
    ⟨_, by cbv, by decide⟩
  obtain ⟨error, refused, failure⟩ := wrong
  have stopsIn : setOutIn plainEnvironment wrongPattern files ⟨.ofString "/", false⟩ ["["] =
      .error (stopped after wrongPatternFailure) := by
    unfold setOutIn
    simp only [start, refused, failure]
  exact (setOut_of_prepared set.resolved set.unconfigured).trans stopsIn

/-- A check with a pattern that is none leaves the files as they were when its patch file was empty,
and not when it had been begun. -/
theorem stopped_agrees_iff_begun :
    (∃ outcome, setOut plainEnvironment wrongPattern (savedFiles "") = .error outcome ∧
        ofWords plainEnvironment wrongPatternWords (savedFiles "") = outcome ∧
        (savedFiles "").Agrees outcome.files) ∧
      ∃ outcome, setOut plainEnvironment wrongPattern (savedFiles "old\n") = .error outcome ∧
        ofWords plainEnvironment wrongPatternWords (savedFiles "old\n") = outcome ∧
        ¬ (savedFiles "old\n").Agrees outcome.files := by
  obtain ⟨begun, empty⟩ := isSetForPatterns_savedFiles
  obtain ⟨ends, -, -, -, agrees⟩ := stopped_agrees_iff parse_wrongPattern empty.setOut_eq
  obtain ⟨endsToo, -, -, -, differs⟩ := stopped_agrees_iff parse_wrongPattern begun.setOut_eq
  refine ⟨⟨_, empty.setOut_eq, ends, agrees.mpr fun path after begins => ?_⟩,
    _, begun.setOut_eq, endsToo, fun same => ?_⟩
  · obtain rfl := Option.some.inj begins.saves
    exact ⟨0o600, by cbv⟩
  · obtain ⟨mode, looked⟩ := differs.mp same _ _ begun.begins
    have there : (savedFiles "old\n").lookAt (.ofString "out.patch") =
        .ok (.file (Utf8.encode "old\n".toList) 0o600) := by cbv
    have content := (Entry.file.inj (Except.ok.inj (looked.symm.trans there))).1
    revert content
    decide

/-- A check that saves patches and has a pattern that is none is stopped before any file is
processed, and the patch file, which held something, is empty. -/
theorem emptied_wrongPattern :
    setOut plainEnvironment wrongPattern (savedFiles "old\n") =
        .error (stopped (savedFiles "") wrongPatternFailure) ∧
      let outcome := ofWords plainEnvironment wrongPatternWords (savedFiles "old\n")
      outcome.status = 1 ∧
        (savedFiles "old\n").read (.ofString "out.patch") = .ok (Utf8.encode "old\n".toList) ∧
        outcome.files.read (.ofString "out.patch") = .ok [] := by
  have stops := isSetForPatterns_savedFiles.1.setOut_eq
  have ends : ofWords plainEnvironment wrongPatternWords (savedFiles "old\n") =
      stopped (savedFiles "") wrongPatternFailure := by
    unfold ofWords
    rw [parse_wrongPattern]
    dsimp only
    rw [ofArguments_eq_setOut, stops]
  have emptied : (savedFiles "").read (.ofString "out.patch") = .ok [] := by cbv
  refine ⟨stops, ?_⟩
  rw [ends]
  exact ⟨rfl, by cbv, emptied⟩

end Run

end LicenseHeader
