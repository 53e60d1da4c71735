import LicenseHeader.Git.Settings
import LicenseHeader.Path.Basic

/-!
# Reading settings

A settings file is read line by line. A line may hold headers of sections in brackets, then one
setting, and a comment; a backslash at its end continues the value on the next line. Reading stops
at the first fault, and the settings before it are known.
-/

namespace LicenseHeader

/-- Why a line of a settings file cannot be read. -/
inductive SettingsProblem where
  /-- A header has no closing bracket. -/
  | missingBracket
  /-- A name in a header has a character that it may not have. -/
  | headerCharacter (column : Nat)
  /-- The name of a subsection has no quotation marks. -/
  | missingQuotes
  /-- The name of a subsection has no closing quotation mark. -/
  | missingClosingQuote
  /-- Something stands between the closing quotation mark and the bracket. -/
  | textAfterQuotes (column : Nat)
  /-- A line has no name of a setting, or something else than an equals sign after it. -/
  | invalidKey
  /-- A value has an unknown escape; the text after the backslash is given. -/
  | invalidEscape (text : Bytes)
  deriving DecidableEq, Repr

/-- Why a settings file cannot be read. -/
structure SettingsFault where
  /-- What is wrong. -/
  problem : SettingsProblem
  /-- The file. -/
  file : Path
  /-- The number of the line, from one on. -/
  line : Nat
  deriving DecidableEq, Repr

/-- The problem in words, and the column where it is if it is known. -/
def SettingsProblem.words : SettingsProblem → String × Option Nat
  | missingBracket => ("missing ']' in section header", none)
  | headerCharacter column => ("unexpected character in header", some column)
  | missingQuotes => ("missing quotation marks in section header", none)
  | missingClosingQuote => ("missing closing quotation mark in section header", none)
  | textAfterQuotes column => ("unexpected text after closing quotes", some column)
  | invalidKey => ("invalid configuration key", none)
  | invalidEscape text => (String.ofList (Utf8.decodeLossy text), none)

/-- The fault in words. -/
def SettingsFault.message (fault : SettingsFault) : String :=
  let words := fault.problem.words
  match fault.problem with
  | .invalidEscape _ => "invalid escape at " ++ words.1
  | _ =>
    "failed to parse config file: " ++ words.1 ++ " (in " ++ fault.file.display ++ ":" ++
      toString fault.line ++
      (match words.2 with
        | some column => ", column " ++ toString column
        | none => "") ++ ")"

/-- What has been read of a settings file. -/
structure SettingsReader where
  /-- The name of the section under way, if there is one. -/
  header : Option Bytes
  /-- The settings, newest first. -/
  settings : List Setting
  /-- The name and the value so far of a setting that goes on, and whether its value is in
  quotation marks. -/
  pending : Option (Bytes × Bytes × Bool)

namespace SettingsReader

/-- Whether a byte may stand in a name. -/
def isNameByte (b : UInt8) : Bool := Ascii.isAlphanumeric b || b = Ascii.byte '-'

/-- A line without its comment and without the white space at its end, and whether it ends in
quotation marks; `before` is what stands before in reverse, and `quoted` says whether the text
stands in quotation marks. -/
def stripComment (quoted : Bool) (before : Bytes) : Bytes → Bytes × Bool
  | [] => (Ascii.dropSpacesEnd before.reverse, quoted)
  | b :: rest =>
    let opens := b = Ascii.byte '"' && !before.isEmpty && before.head? ≠ some (Ascii.byte '\\')
    let quoted := if opens then !quoted else quoted
    let escaped := (before.takeWhile (· = Ascii.byte '\\')).length % 2 = 1
    if (b = Ascii.byte ';' || b = Ascii.byte '#') && !quoted && !escaped then
      (Ascii.dropSpacesEnd before.reverse, quoted)
    else stripComment quoted (b :: before) rest

/-- The escapes of values: the letter after the backslash and the byte it stands for. -/
def escapes : List (UInt8 × UInt8) :=
  [(Ascii.byte 'n', Ascii.byte '\n'), (Ascii.byte 't', Ascii.byte '\t'), (Ascii.byte 'b', 0x08),
    (Ascii.byte '"', Ascii.byte '"'), (Ascii.byte '\\', Ascii.byte '\\')]

/-- A written value without its quotation marks and escapes, and whether a backslash at its end
continues it. -/
def unescape : Bytes → Except SettingsProblem (Bytes × Bool)
  | [] => .ok ([], false)
  | b :: rest =>
    if b = Ascii.byte '"' then unescape rest
    else if b = Ascii.byte '\\' then
      match rest with
      | [] => .ok ([], true)
      | letter :: more =>
        match escapes.find? (·.1 = letter) with
        | none => .error (.invalidEscape rest)
        | some (_, meant) => (unescape more).map fun value => (meant :: value.1, value.2)
    else (unescape rest).map fun value => (b :: value.1, value.2)

/-- The name of a subsection after its opening quotation mark, and the text after the closing
bracket. `offset` is the distance from that mark, and the last mark of the line is at `last`. -/
def readQuotedName (last offset : Nat) (name : Bytes) :
    Bytes → Except SettingsProblem (Bytes × Bytes)
  | [] => .error (.textAfterQuotes offset)
  | b :: rest =>
    if b = Ascii.byte '"' || last ≤ offset then
      if b = Ascii.byte '"' && rest.head? = some (Ascii.byte ']') then .ok (name, rest.drop 1)
      else .error (.textAfterQuotes offset)
    else if b = Ascii.byte '\\' then
      match rest with
      | [] => .error (.textAfterQuotes offset)
      | escaped :: rest => readQuotedName last (offset + 2) (name ++ [escaped]) rest
    else readQuotedName last (offset + 1) (name ++ [b]) rest

/-- The name of a subsection from its opening quotation mark on, and the text after the closing
bracket. -/
def readSubsection (text : Bytes) : Except SettingsProblem (Bytes × Bytes) :=
  match text with
  | [] => .error .missingQuotes
  | b :: rest =>
    let last := rest.length - rest.reverse.idxOf (Ascii.byte '"')
    if b ≠ Ascii.byte '"' then .error .missingQuotes
    else if last = 0 then .error .missingClosingQuote
    else readQuotedName last 1 [] rest

/-- The name of a section after its opening bracket, with that of its subsection, and the text after
the closing bracket. `column` is the one of the first byte, and `name` is what has been read. -/
def readHeader (column : Nat) (name : Bytes) : Bytes → Except SettingsProblem (Bytes × Bytes)
  | [] => .error .missingBracket
  | b :: rest =>
    if Ascii.isSpace b then
      (readSubsection (rest.dropWhile Ascii.isSpace)).map fun found =>
        (name ++ Ascii.byte '.' :: found.1, found.2)
    else if !(isNameByte b || b = Ascii.byte '.') then .error (.headerCharacter column)
    else if rest.head? = some (Ascii.byte ']') then .ok (name ++ [Ascii.lower b], rest.drop 1)
    else readHeader (column + 1) (name ++ [Ascii.lower b]) rest

/-- The headers that a line starts with: the name of the last section, or of the one under way, and
the rest of the line. Every header takes a byte, so that `fuel` need not be more than the length of
the line. -/
def readHeaders (header : Option Bytes) :
    Nat → Bytes → Except SettingsProblem (Option Bytes × Bytes)
  | 0, line => .ok (header, line)
  | fuel + 1, line =>
    match line.dropWhile Ascii.isSpace with
    | [] => .ok (header, line)
    | b :: rest =>
      if b ≠ Ascii.byte '[' then .ok (header, line)
      else
        let text := rest.takeWhile (· ≠ 0)
        if !text.contains (Ascii.byte ']') then .error .missingBracket
        else
          match readHeader 2 [] text with
          | .error problem => .error problem
          | .ok (name, after) => readHeaders (some name) fuel after

/-- The name of a setting, its value, and whether the value goes on; with it whether the line ends
in quotation marks. -/
def readSetting (line : Bytes) : Except SettingsProblem (Bytes × Option (Bytes × Bool) × Bool) :=
  let (text, quoted) := stripComment false [] (line.takeWhile (· ≠ 0))
  let name := text.takeWhile isNameByte
  if name.isEmpty then .error .invalidKey
  else
    match (text.drop name.length).dropWhile Ascii.isSpace with
    | [] => .ok (name, none, quoted)
    | b :: value =>
      if b ≠ Ascii.byte '=' then .error .invalidKey
      else
        (unescape (value.dropWhile Ascii.isSpace)).map fun found => (name, some found, quoted)

/-- What has been read with one more setting. -/
def push (reader : SettingsReader) (name : Bytes) (value : Option Bytes) : SettingsReader :=
  { reader with settings := ⟨name, value⟩ :: reader.settings, pending := none }

/-- What has been read after one more line. -/
def readLine (reader : SettingsReader) (line : Bytes) : Except SettingsProblem SettingsReader :=
  match reader.pending with
  | some (name, value, quoted) =>
    let (text, quoted) := stripComment quoted [] (line.takeWhile (· ≠ 0))
    if line.head? = some 0 then .ok (reader.push name (some value))
    else if text.isEmpty then .ok { reader with pending := some (name, value, quoted) }
    else
      (unescape text).map fun found =>
        if found.2 then { reader with pending := some (name, value ++ found.1, quoted) }
        else reader.push name (some (value ++ found.1))
  | none => do
    let (header, rest) ← readHeaders reader.header line.length line
    let reader := { reader with header := header }
    match rest.dropWhile Ascii.isSpace with
    | [] =>
      let blank := line.all Ascii.isSpace
      if blank && (line.head? = some 0x0B || line.head? = some 0x0C) then throw .invalidKey
      return reader
    | b :: more =>
      if b = Ascii.byte ';' || b = Ascii.byte '#' then return reader
      else
        let (key, value, quoted) ← readSetting (b :: more)
        let dot : Bytes := [Ascii.byte '.']
        let name := (header.map (· ++ dot)).getD [] ++ Ascii.lowered key
        match value with
        | none => return reader.push name none
        | some (value, false) => return reader.push name (some value)
        | some (value, true) => return { reader with pending := some (name, value, quoted) }

/-- The settings that have been read, in order; one that goes on is as it is. -/
def finish (reader : SettingsReader) : List Setting :=
  let done := match reader.pending with
    | some (name, value, _) => reader.push name (some value)
    | none => reader
  done.settings.reverse

/-- What has been read after more lines, of which the first has the given number; the number of the
line that cannot be read and the problem, if there is one. -/
def readLines (reader : SettingsReader) (number : Nat) :
    List Bytes → SettingsReader × Option (Nat × SettingsProblem)
  | [] => (reader, none)
  | line :: more =>
    match reader.readLine line with
    | .ok reader => readLines reader (number + 1) more
    | .error problem => (reader, some (number, problem))

/-- The lines of a file without their line feeds. -/
def linesOf (content : Bytes) : List Bytes :=
  let rec
    /-- The lines after `line`, the bytes of the line under way in reverse. -/
    split (line : Bytes) : Bytes → List Bytes
      | [] => if line.isEmpty then [] else [line.reverse]
      | b :: rest =>
        if b = Ascii.byte '\n' then line.reverse :: split [] rest else split (b :: line) rest
  split [] content

/-- The settings in a file up to the first fault, and this fault. A byte order mark in front says
nothing, and neither does a file that starts with a zero byte. -/
def read (file : Path) (content : Bytes) : List Setting × Option SettingsFault :=
  if content.head? = some 0 then ([], none)
  else
    let mark := Utf8.encode ['\uFEFF']
    let text := if mark.isPrefixOf content then content.drop mark.length else content
    let (reader, problem) := readLines ⟨none, [], none⟩ 1 (linesOf text)
    (reader.finish, problem.map fun (line, problem) => ⟨problem, file, line⟩)

end SettingsReader

end LicenseHeader
