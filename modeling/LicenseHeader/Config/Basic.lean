import LicenseHeader.Config.Document
import LicenseHeader.Exclude.Pattern
import LicenseHeader.Failure
import LicenseHeader.File.Operations

/-!
# The configuration of a run

A configuration lists patterns of paths that are left alone. It is found by a path given on the
command line, by the environment, or by its name in the root of the workspace, in this order.
-/

namespace LicenseHeader

/-- The configuration of a run. -/
structure Config where
  /-- The patterns of paths that are left alone. -/
  exclude : List String
  deriving DecidableEq, Repr

/-- Why a configuration cannot be used. -/
inductive ConfigError where
  /-- The file at the path cannot be read. -/
  | unreadable (path : Path) (fault : IoFault)
  /-- The file at the path holds no configuration. -/
  | malformed (path : Path)
  /-- A pattern is none. -/
  | pattern (source : String) (cause : PatternError)
  deriving DecidableEq, Repr

namespace ConfigError

/-- What is wrong with the content of a file that holds no configuration. -/
def malformedCause : String := "TOML parse error"

/-- The causes of an error in words. -/
def cause : ConfigError → String
  | unreadable _ fault => fault.message
  | malformed _ => malformedCause
  | pattern _ cause => cause.message

/-- The error in words, with its cause. -/
def message (error : ConfigError) : String :=
  match error with
  | unreadable path _ => "Failed to read config file '" ++ path.display ++ "': " ++ error.cause
  | malformed path => "Failed to parse config file '" ++ path.display ++ "': " ++ error.cause
  | pattern source _ => "Invalid exclude pattern '" ++ source ++ "': " ++ error.cause

/-- The error as a failure of the run. -/
def failure (error : ConfigError) : Failure := ⟨error.message, [error.cause]⟩

end ConfigError

namespace Config

/-- The name of the configuration in the root of a workspace. -/
def fileName : String := ".hdrsync.toml"

/-- The variable of the environment that names the configuration. -/
def environmentName : String := "HDRSYNC_CONFIG"

/-- The first pattern that is none, as an error. -/
def checkPatterns : List String → Except ConfigError Unit
  | [] => .ok ()
  | source :: more =>
    match Pattern.parse source with
    | .error cause => .error (.pattern source cause)
    | .ok _ => checkPatterns more

/-- The configuration that the content of the file at a path holds. -/
def ofContent (path : Path) (content : Bytes) : Except ConfigError Config := do
  match Utf8.decode content with
  | .error _ => throw (.unreadable path .notText)
  | .ok text =>
    match readDocument? text with
    | none => throw (.malformed path)
    | some items =>
      let sources := items.map String.ofList
      checkPatterns sources
      return ⟨sources⟩

/-- The configuration in the file at a path. -/
def load (files : FileSystem) (path : Path) : Except ConfigError Config :=
  match files.read path with
  | .error fault => .error (.unreadable path fault)
  | .ok content => ofContent path content

/-- The path of the configuration: the one given, whether anything is there or not; or the one from
the environment, if something is there; or the one in the root of the workspace, if it is there. -/
def discover (files : FileSystem) (given : Option Path) (environment : Option String)
    (root : Path) : Option Path :=
  match given with
  | some path => some path
  | none =>
    ((environment.map Path.ofString).toList ++ [root.join (Path.ofString fileName)]).find? files.has

/-- The configuration of a run, if it has one, or the error in the file at a path. -/
def forRun (files : FileSystem) (given : Option Path) (environment : Option String) (root : Path)
    (without : Bool) : Except (Path × ConfigError) (Option Config) :=
  if without then .ok none
  else
    match discover files given environment root with
    | none => .ok none
    | some path =>
      match load files path with
      | .ok config => .ok (some config)
      | .error error => .error (path, error)

/-- The error in the file at a path as a failure of the run. -/
def loadFailure (path : Path) (error : ConfigError) : Failure :=
  error.failure.during ("Failed to load config from " ++ path.display)

end Config

end LicenseHeader
