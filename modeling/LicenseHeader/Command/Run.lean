import LicenseHeader.Batch.Basic
import LicenseHeader.Command.Arguments
import LicenseHeader.Config.Basic
import LicenseHeader.Console.Message
import LicenseHeader.Console.Patch
import LicenseHeader.Report.Json
import LicenseHeader.Source.Basic

/-!
# A run of the program

A run finds the workspace, the configuration and the candidates, processes them, and tells what
happened. A failure before any file is processed ends the run.
-/

namespace LicenseHeader

/-- What a run takes from its environment. -/
structure Environment where
  /-- The path of a configuration, if the environment names one. -/
  config : Option String
  /-- What is logged, if the environment says so. -/
  log : Option String
  /-- What the environment says about colours. -/
  colours : ColourWishes
  /-- When the report is made, as local time in words. -/
  now : String
  /-- How long processing takes. -/
  elapsed : Elapsed
  /-- What the device fails to do. -/
  device : Device

/-- What a run did. -/
structure RunOutcome where
  /-- The files. -/
  files : FileSystem
  /-- The lines printed to the standard output. -/
  output : List String
  /-- The lines printed to the standard error output. -/
  errors : List String
  /-- The status with which the run ended. -/
  status : Nat

namespace Run

/-- The run that fails before any file is processed. -/
def stopped (files : FileSystem) (failure : Failure) : RunOutcome := ⟨files, [], failure.lines, 1⟩

/-- The console that arguments and environment ask for. -/
def console (environment : Environment) (arguments : Arguments) : Console where
  verbosity :=
    if 0 < arguments.verbose then .verbose else if arguments.quiet then .quiet else .normal
  painted := arguments.colours.paints environment.colours

/-- How a run with the given arguments logs messages. -/
def messageLog (environment : Environment) (arguments : Arguments) : MessageLog :=
  .ofRun environment.log environment.colours (.ofFlags arguments.quiet arguments.verbose)

/-- The lines of a notice. -/
def noticeLines (console : Console) (log : MessageLog) : Notice → List String
  | .warning message => log.warning message
  | .patch text => console.patchRows text

/-- The listing of processed files. -/
def listing (console : Console) (root : Path) (check : Bool) (groups : Groups) : List String :=
  (if groups.updated.isEmpty && groups.failed.isEmpty then console.allDone
    else
      console.updated (some root) check groups.updated ++
        if groups.failed.isEmpty then []
        else console.gap ++ console.failed (some root) groups.failed) ++
    if groups.unchanged.isEmpty then []
    else console.gap ++ console.unchanged (some root) groups.unchanged

/-- What the user may do after a check that found something. -/
def checkHint : String := "Run without --check to write the canonical headers."

/-- The report written, if one was asked for, as far as the device does so. -/
def writeReport (environment : Environment) (arguments : Arguments) (summary : Summary)
    (reports : List Report) (files : FileSystem) : Attempt :=
  match arguments.report with
  | none => ⟨files, none⟩
  | some path =>
    let report : RunReport := ⟨environment.now, arguments.check, summary, reports⟩
    files.writeTo environment.device path (Utf8.encode report.text)

/-- The files with the report, if one was asked for, and what is told about it. -/
def saveReport (environment : Environment) (arguments : Arguments) (summary : Summary)
    (reports : List Report) (files : FileSystem) : Except Failure (FileSystem × List String) :=
  match arguments.report with
  | none => .ok (files, [])
  | some path =>
    let done := writeReport environment arguments summary reports files
    match done.fault with
    | none =>
      let told := "Generated JSON report at " ++ path.display
      .ok (done.files, (console environment arguments).info told)
    | some fault => .error ⟨"Failed to write report to " ++ path.display, [fault.message]⟩

/-- The run on the selected files. -/
def onSelection (environment : Environment) (arguments : Arguments) (batch : Batch)
    (files : FileSystem) (selection : Selection) : RunOutcome :=
  let console := console environment arguments
  let done := batch.processSelection environment.device files selection
  let summary := Summary.ofReports done.reports environment.elapsed
  let groups := Groups.ofReports done.reports
  let output :=
    console.start selection.targets.length arguments.check ++ console.gap ++
      listing console batch.root arguments.check groups ++ console.gap ++
      console.summary arguments.check summary
  let errors := done.notices.flatMap (noticeLines console (messageLog environment arguments))
  match saveReport environment arguments summary done.reports done.files with
  | .error failure =>
    let left := (writeReport environment arguments summary done.reports done.files).files
    ⟨left, output, errors ++ failure.lines, 1⟩
  | .ok (files, told) =>
    if arguments.check && !groups.updated.isEmpty then
      ⟨files, output ++ told ++ console.gap ++ console.hint checkHint, errors, 1⟩
    else ⟨files, output ++ told, errors, 0⟩

/-- The output for patches, when it is needed. -/
def patchOutput (arguments : Arguments) : Option PatchOutput :=
  let output : PatchOutput := ⟨arguments.showPatch, arguments.savePatch⟩
  if arguments.check && output.isEnabled then some output else none

/-- The files with an empty patch file, if one is needed. -/
def startPatches (device : Device) (files : FileSystem) :
    Option PatchOutput → Except Failure FileSystem
  | none => .ok files
  | some output => output.start files device

/-- The source of the candidates. -/
def source (arguments : Arguments) (directory : Path) (workspace : Workspace) : Source :=
  if arguments.paths.isEmpty then workspace.source else .below directory arguments.paths

/-- The run in a workspace whose exclude patterns are known. -/
def inWorkspace (environment : Environment) (arguments : Arguments) (files : FileSystem)
    (workspace : Workspace) (patterns : List String) : RunOutcome :=
  let patches := patchOutput arguments
  match startPatches environment.device files patches with
  | .error failure => stopped files failure
  | .ok files =>
    match Exclusion.ofSources workspace.root patterns with
    | .error error => stopped files ⟨error.message, [error.cause.message]⟩
    | .ok exclusion =>
      let directory := FileSystem.pathOf files.workingDirectory
      match (source arguments directory workspace).list files with
      | .error error => stopped files (error.failure.during "Failed to enumerate files")
      | .ok paths =>
        onSelection environment arguments ⟨workspace.root, arguments.check, patches⟩ files
          (Selection.ofPaths files exclusion paths)

/-- The run that arguments ask for. -/
def ofArguments (environment : Environment) (arguments : Arguments) (files : FileSystem) :
    RunOutcome :=
  let directory := FileSystem.pathOf files.workingDirectory
  let start := (arguments.root.map directory.join).getD directory
  match Workspace.resolve files start (!arguments.noRepository) with
  | .error error => stopped files (error.failure.during "Failed to resolve workspace")
  | .ok workspace =>
    match Config.forRun files arguments.config environment.config workspace.root
        arguments.noConfig with
    | .error (path, error) => stopped files (Config.loadFailure path error)
    | .ok config =>
      inWorkspace environment arguments files workspace
        ((config.map (·.exclude)).getD [] ++ arguments.exclude)

/-- The name and the version of the program. -/
def versionLine : String := "hdrsync 0.1.0"

/-- How the program is called. -/
def usageLines : List String :=
  ["Usage: hdrsync [OPTIONS] [PATHS]...", "",
    "Options: --root DIR, --no-git, --check, --show-diff, -o/--save-diff FILE, -e/--exclude GLOB,",
    "  --config FILE, --no-config, --report-json OUTPUT, -v/--verbose, -q/--quiet,",
    "  --colors [auto|never|always], -h/--help, -V/--version"]

/-- The run that the words of a command line ask for. A wrong command line ends with status two. -/
def ofWords (environment : Environment) (words : List Bytes) (files : FileSystem) : RunOutcome :=
  match Arguments.parse words with
  | .ok arguments => ofArguments environment arguments files
  | .error .version => ⟨files, [versionLine], [], 0⟩
  | .error .help => ⟨files, usageLines, [], 0⟩
  | .error .usage => ⟨files, [], usageLines, 2⟩

end Run

end LicenseHeader
