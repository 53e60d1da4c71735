import LicenseHeader.Console.Basic
import LicenseHeader.Path.Basic
import LicenseHeader.Text.Ascii

/-!
# Arguments of the command line

`Arguments.parse` reads the words of a command line from the left. Words that start with a hyphen
are flags, of one letter or written out, and some of them take the next word, or what follows an
equals sign, as their value; all others are paths. After a word of two hyphens all words are paths.
Words are bytes, since paths are, but patterns and words for modes have to be text.
-/

namespace LicenseHeader

/-- What a run was asked to do. -/
structure Arguments where
  /-- The files and directories to process. -/
  paths : List Path
  /-- The directory that the workspace is looked for from. -/
  root : Option Path
  /-- Whether the workspace is a plain directory. -/
  noRepository : Bool
  /-- Whether nothing is written to the files. -/
  check : Bool
  /-- Whether patches are shown. -/
  showPatch : Bool
  /-- The file that patches are saved to. -/
  savePatch : Option Path
  /-- Patterns of paths that are left alone. -/
  exclude : List String
  /-- The configuration to use. -/
  config : Option Path
  /-- Whether no configuration is used. -/
  noConfig : Bool
  /-- The file that the report is written to. -/
  report : Option Path
  /-- How often more output was asked for. -/
  verbose : Nat
  /-- Whether less output was asked for. -/
  quiet : Bool
  /-- When to print in colour. -/
  colours : ColourMode
  deriving DecidableEq, Repr

/-- The flags of the command line. -/
inductive Flag where
  /-- The directory that the workspace is looked for from. -/
  | root
  /-- The workspace is a plain directory. -/
  | noRepository
  /-- Nothing is written to the files. -/
  | check
  /-- Patches are shown. -/
  | showPatch
  /-- The file that patches are saved to. -/
  | savePatch
  /-- A pattern of paths that are left alone. -/
  | exclude
  /-- The configuration to use. -/
  | config
  /-- No configuration is used. -/
  | noConfig
  /-- The file that the report is written to. -/
  | report
  /-- More output. -/
  | verbose
  /-- Less output. -/
  | quiet
  /-- When to print in colour. -/
  | colours
  /-- Only tell how the program is called. -/
  | help
  /-- Only tell the version. -/
  | version
  deriving DecidableEq, Repr

/-- Whether a flag takes a value. -/
inductive ValueRule where
  /-- It takes none. -/
  | never
  /-- It takes one. -/
  | always
  /-- It takes one if there is one. -/
  | optional
  deriving DecidableEq, Repr

namespace Flag

/-- The flags written out. -/
def words : List (String × Flag) :=
  [("root", root), ("no-git", noRepository), ("check", check), ("show-diff", showPatch),
    ("save-diff", savePatch), ("exclude", exclude), ("config", config), ("no-config", noConfig),
    ("report-json", report), ("verbose", verbose), ("quiet", quiet), ("colors", colours),
    ("help", help), ("version", version)]

/-- The flags of one letter. -/
def letters : List (Char × Flag) :=
  [('o', savePatch), ('e', exclude), ('v', verbose), ('q', quiet), ('h', help), ('V', version)]

/-- The flag that a word without its hyphens names. -/
def ofWord? (word : Bytes) : Option Flag :=
  (words.find? fun pair => Ascii.bytes pair.1 = word).map (·.2)

/-- The flag that a letter names. -/
def ofLetter? (letter : UInt8) : Option Flag :=
  (letters.find? fun pair => Ascii.byte pair.1 = letter).map (·.2)

/-- Whether a flag takes a value. -/
def valueRule : Flag → ValueRule
  | root | savePatch | exclude | config | report => .always
  | colours => .optional
  | _ => .never

/-- Whether a flag can be given several times. -/
def repeats : Flag → Bool
  | exclude | verbose => true
  | _ => false

end Flag

/-- What stands on a command line. -/
inductive Occurrence where
  /-- A flag and its value, if it has one. -/
  | flag (flag : Flag) (value : Option Bytes)
  /-- A path. -/
  | path (word : Bytes)
  /-- A word that is no flag, or a flag without its value or with one too many. -/
  | fault
  deriving DecidableEq, Repr

namespace Occurrence

/-- The byte that flags start with. -/
def hyphen : UInt8 := Ascii.byte '-'

/-- The byte between a flag and its value in one word. -/
def equalsSign : UInt8 := Ascii.byte '='

/-- Whether a word is a flag where a value could stand. -/
def looksLikeFlag (word : Bytes) : Bool := word.head? = some hyphen && word ≠ [hyphen]

/-- The flags of one letter in a word without its hyphen, and the last of them if its value has to
come with the next word. -/
def ofLetters : Bytes → List Occurrence × Option Flag
  | [] => ([], none)
  | letter :: rest =>
    match Flag.ofLetter? letter with
    | none => ([.fault], none)
    | some found =>
      if found.valueRule = .never then
        let more := ofLetters rest
        (.flag found none :: more.1, more.2)
      else
        match rest with
        | [] => ([], some found)
        | c :: value => ([.flag found (some (if c = equalsSign then value else c :: value))], none)

/-- The flag of a word without its hyphens, or the flag if its value can come with the next word. -/
def ofLongWord (word : Bytes) : List Occurrence × Option Flag :=
  match Flag.ofWord? (word.takeWhile (· ≠ equalsSign)), word.dropWhile (· ≠ equalsSign) with
  | none, _ => ([.fault], none)
  | some found, [] =>
    if found.valueRule = .never then ([.flag found none], none) else ([], some found)
  | some found, _ :: value =>
    if found.valueRule = .never then ([.fault], none) else ([.flag found (some value)], none)

/-- The occurrences on a command line; `awaiting` is a flag whose value the next word can be. -/
def ofWords (awaiting : Option Flag) : List Bytes → List Occurrence
  | [] =>
    match awaiting with
    | none => []
    | some found => [if found.valueRule = .optional then .flag found none else .fault]
  | word :: rest =>
    let here (before : List Occurrence) : List Occurrence :=
      before ++
        if word = [hyphen, hyphen] then rest.map .path
        else if [hyphen, hyphen].isPrefixOf word then
          let found := ofLongWord (word.drop 2)
          found.1 ++ ofWords found.2 rest
        else if looksLikeFlag word then
          let found := ofLetters (word.drop 1)
          found.1 ++ ofWords found.2 rest
        else .path word :: ofWords none rest
    match awaiting with
    | none => here []
    | some found =>
      if looksLikeFlag word then
        here [if found.valueRule = .optional then .flag found none else .fault]
      else .flag found (some word) :: ofWords none rest

end Occurrence

/-- What a command line asks for, if not for a run. -/
inductive Stop where
  /-- It is wrong. -/
  | usage
  /-- How the program is called. -/
  | help
  /-- The version. -/
  | version
  deriving DecidableEq, Repr

namespace Arguments

/-- The arguments of an empty command line. -/
def empty : Arguments where
  paths := []
  root := none
  noRepository := false
  check := false
  showPatch := false
  savePatch := none
  exclude := []
  config := none
  noConfig := false
  report := none
  verbose := 0
  quiet := false
  colours := .auto

/-- The path that a value writes; an empty one is none. -/
def pathOf (value : Bytes) : Except Stop Path :=
  if value.isEmpty then .error .usage else .ok ⟨value⟩

/-- The text that a value writes; one that is no text is none. -/
def textOf (value : Bytes) : Except Stop String :=
  match Utf8.decode value with
  | .ok text => .ok (String.ofList text)
  | .error _ => .error .usage

/-- The arguments with a flag that takes no value. -/
def setFlag (arguments : Arguments) : Flag → Except Stop Arguments
  | .noRepository => .ok { arguments with noRepository := true }
  | .check => .ok { arguments with check := true }
  | .showPatch => .ok { arguments with showPatch := true }
  | .noConfig => .ok { arguments with noConfig := true }
  | .verbose => .ok { arguments with verbose := arguments.verbose + 1 }
  | .quiet => .ok { arguments with quiet := true }
  | .colours => .ok { arguments with colours := .always }
  | .help => .error .help
  | .version => .error .version
  | _ => .error .usage

/-- The arguments with a flag and its value. -/
def setValue (arguments : Arguments) (value : Bytes) : Flag → Except Stop Arguments
  | .root => do return { arguments with root := some (← pathOf value) }
  | .savePatch => do return { arguments with savePatch := some (← pathOf value) }
  | .config => do return { arguments with config := some (← pathOf value) }
  | .report => do return { arguments with report := some (← pathOf value) }
  | .exclude => do return { arguments with exclude := arguments.exclude ++ [← textOf value] }
  | .colours => do
    match ColourMode.ofName? (← textOf value) with
    | some mode => return { arguments with colours := mode }
    | none => throw .usage
  | _ => .error .usage

/-- The arguments with what stands on a command line after the flags `seen`, up to the first thing
that stops the run, and the flags on the whole command line. -/
def collect (arguments : Arguments) (seen : List Flag) :
    List Occurrence → Except Stop (Arguments × List Flag)
  | [] => .ok (arguments, seen)
  | .fault :: _ => .error .usage
  | .path word :: rest => do
    let path ← pathOf word
    collect { arguments with paths := arguments.paths ++ [path] } seen rest
  | .flag flag value :: rest => do
    if seen.contains flag && !flag.repeats then throw .usage
    let arguments ← match value with
      | none => arguments.setFlag flag
      | some value => arguments.setValue value flag
    collect arguments (flag :: seen) rest

/-- Whether flags go together: patches need a check, and some flags contradict others. -/
def consistent (seen : List Flag) : Bool :=
  let given (flag : Flag) : Bool := seen.contains flag
  (given .check || !(given .showPatch || given .savePatch)) &&
    !(given .config && given .noConfig) && !(given .quiet && given .verbose)

/-- The arguments that the words of a command line give. -/
def parse (words : List Bytes) : Except Stop Arguments := do
  let (arguments, seen) ← collect empty [] (Occurrence.ofWords none words)
  if consistent seen then return arguments else throw .usage

end Arguments

end LicenseHeader
