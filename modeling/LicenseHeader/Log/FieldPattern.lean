import LicenseHeader.Text.Alphanumeric
import LicenseHeader.Text.Blank

/-!
# Patterns for the values of fields

A filter may ask for the value of a field by a regular expression. What it matches never decides
here, since nothing is logged from within spans, but a filter with something that is no expression
is none. Classes that need tables of Unicode properties are refused: those of letters, digits, white
space and properties, the bounds of words, and letters of either case.
-/

namespace LicenseHeader.Log

/-- How a part of an expression is read. -/
structure PatternMode where
  /-- Whether characters are those of Unicode, and not bytes. -/
  unicode : Bool
  /-- Whether letters of either case are one. -/
  folded : Bool
  /-- Whether white space and comments say nothing. -/
  spaced : Bool
  deriving DecidableEq, Repr

/-- Whether it is known which letters are one. -/
def PatternMode.hasCase (mode : PatternMode) : Bool := !(mode.folded && mode.unicode)

namespace FieldPattern

/-- What an escape stands for. -/
inductive Escape where
  /-- A character. -/
  | literal (c : Char)
  /-- A set of characters. -/
  | set
  /-- A place between characters. -/
  | place
  deriving DecidableEq, Repr

/-- The text after white space and comments, if these say nothing. -/
def skip (mode : PatternMode) : Text → Text
  | [] => []
  | c :: rest =>
    if mode.spaced && Text.isBlank c then skip mode rest
    else if mode.spaced && c = '#' then
      skip mode ((rest.dropWhile (· ≠ '\n')).drop 1)
    else c :: rest
  termination_by text => text.length
  decreasing_by
    · simp
    · have shorter : (rest.dropWhile (· ≠ '\n')).length ≤ rest.length :=
        (List.dropWhile_sublist _).length_le
      simp only [List.length_drop, List.length_cons]
      omega

/-- The number that hexadecimal digits write. -/
def hexNumber (digits : Text) : Nat :=
  digits.foldl (fun n c =>
    16 * n + (if c.isDigit then c.toNat - '0'.toNat else c.toLower.toNat - 'a'.toNat + 10)) 0

/-- Whether a character is a hexadecimal digit. -/
def isHexDigit (c : Char) : Bool :=
  c.isDigit || ('a' ≤ c.toLower && c.toLower ≤ 'f')

/-- The character that `count` hexadecimal digits at the start of a text write. -/
def readHex (count : Nat) (text : Text) : Option (Escape × Text) :=
  let digits := text.take count
  let number := hexNumber digits
  if digits.length < count || !digits.all isHexDigit || !number.isValidChar then none
  else some (.literal (Char.ofNat number), text.drop count)

/-- The characters that mean something in an expression. -/
def metaCharacters : Text := "\\.+*?()|[]\x7b\x7d^$#&-~".toList

/-- Whether a character stands for itself after a backslash. -/
def isEscapable (c : Char) : Bool :=
  c.toNat < 0x80 && !c.isAlphanum && c ≠ '<' && c ≠ '>'

/-- What a backslash in front of a text stands for, and the text after it. -/
def readEscape (mode : PatternMode) : Text → Option (Escape × Text)
  | [] => none
  | c :: rest =>
    if c = 'x' then readHex 2 rest
    else if c = 'u' then readHex 4 rest
    else if c = 'U' then readHex 8 rest
    else if metaCharacters.contains c || isEscapable c then some (.literal c, rest)
    else if "aftnrv".toList.contains c then some (.literal c, rest)
    else if "Az".toList.contains c then some (.place, rest)
    else if "dsw".toList.contains c then if mode.unicode then none else some (.set, rest)
    else if "b<>".toList.contains c then if mode.unicode then none else some (.place, rest)
    else none

/-- One member of a set, or one end of a range, and the text after it. -/
def readMember (mode : PatternMode) : Text → Option (Escape × Text)
  | [] => none
  | '\\' :: rest => readEscape mode rest
  | c :: rest => some (.literal c, rest)

/-- The text after a member of a set or a range of them. -/
def readRange (mode : PatternMode) (text : Text) : Option Text := do
  let (low, rest) ← readMember mode text
  match skip mode rest with
  | [] => none
  | '-' :: more =>
    let after := skip mode more
    if after.head? = some ']' || after.head? = some '-' then
      if low = .place then none else some ('-' :: more)
    else
      match low, ← readMember mode after with
      | .literal low, (.literal high, rest) => if low ≤ high then some rest else none
      | _, _ => none
  | rest => if low = .place then none else some rest

/-- The text after the opening bracket of a set and what stands for itself right behind it. -/
def openSet (mode : PatternMode) (text : Text) : Option Text :=
  let text := skip mode text
  let negated := text.head? = some '^'
  let text := if negated then skip mode (text.drop 1) else text
  let inner := text.dropWhile (· = '-')
  let rest := if inner.length = text.length && inner.head? = some ']' then inner.drop 1 else inner
  if rest.isEmpty || (negated && !mode.unicode) then none else some rest

/-- The names of sets in brackets and colons. -/
def setNames : List String :=
  ["alnum", "alpha", "ascii", "blank", "cntrl", "digit", "graph", "lower", "print", "punct",
    "space", "upper", "word", "xdigit"]

/-- The text after a set that is named between colons, whose opening bracket has been read. -/
def readNamedSet? : Text → Option Text
  | ':' :: rest =>
    let body := if rest.head? = some '^' then rest.drop 1 else rest
    let name := body.takeWhile (· ≠ ':')
    let after := body.drop name.length
    if [':', ']'].isPrefixOf after && setNames.any (·.toList = name) then some (after.drop 2)
    else none
  | _ => none

/-- The text after the members of a set, where `depth` sets are open around it. Every step takes a
character, so that `fuel` need not be more than the length of the text. -/
def readSet (mode : PatternMode) : Nat → Nat → Text → Option Text
  | 0, _, _ => none
  | fuel + 1, depth, text =>
    match skip mode text with
    | [] => none
    | ']' :: rest => if depth = 0 then some rest else readSet mode fuel (depth - 1) rest
    | '[' :: rest =>
      match readNamedSet? rest with
      | some after => readSet mode fuel depth after
      | none => (openSet mode rest).bind (readSet mode fuel (depth + 1))
    | '&' :: '&' :: rest => readSet mode fuel depth rest
    | '-' :: '-' :: rest => readSet mode fuel depth rest
    | '~' :: '~' :: rest => readSet mode fuel depth rest
    | text => (readRange mode text).bind (readSet mode fuel depth)

/-- The mode with flags set, or taken back after a hyphen, and what follows the flags. No flag is
given twice, and a hyphen stands before a flag. -/
def readFlags (mode : PatternMode) (negated : Bool) (seen : Text) :
    Text → Option (PatternMode × Text)
  | [] => none
  | c :: rest =>
    if c = ':' || c = ')' then
      if seen.head? = some '-' then none else some (mode, c :: rest)
    else if seen.contains c || !"imsUuRx-".toList.contains c then none
    else
      let set := !negated
      let mode := if c = 'i' then { mode with folded := set }
        else if c = 'u' then { mode with unicode := set }
        else if c = 'x' then { mode with spaced := set } else mode
      readFlags mode (negated || c = '-') (c :: seen) rest

/-- The name of a group at the start of a text, and the text after the closing bracket. -/
def readGroupName (text : Text) : Option (Text × Text) :=
  let name := text.takeWhile (· ≠ '>')
  let startsName (c : Char) : Bool := c = '_' || (Text.isAlphanumeric c && !c.isDigit)
  let isNamePart (c : Char) : Bool := Text.isAlphanumeric c || "_.[]".toList.contains c
  if name.length = text.length || !(name.head?.map startsName).getD false ||
      !name.all isNamePart then none
  else some (name, text.drop (name.length + 1))

/-- What is known while an expression is read. -/
structure PatternReader where
  /-- How it is read. -/
  mode : PatternMode
  /-- How it is read after each group that is open. -/
  around : List PatternMode
  /-- The names of groups. -/
  names : List Text
  /-- Whether something stands before that can be repeated. -/
  repeatable : Bool

/-- What is known after the opening bracket of a group, and the text after what tells its kind. -/
def readGroup (reader : PatternReader) (text : Text) : Option (PatternReader × Text) :=
  let inside := { reader with around := reader.mode :: reader.around, repeatable := false }
  let text := skip reader.mode text
  let named? := ["?P<".toList, "?<".toList].find? fun mark => mark.isPrefixOf text
  match text, named? with
  | '?' :: '<' :: '!' :: _, _ => none
  | _, some mark => do
    let (name, rest) ← readGroupName (text.drop mark.length)
    if reader.names.contains name then none
    else some ({ inside with names := name :: reader.names }, rest)
  | '?' :: rest, none => do
    let (mode, rest) ← readFlags reader.mode false [] rest
    match rest with
    | ':' :: rest => some ({ inside with mode := mode }, rest)
    | _ :: after =>
      if text[1]? = some ')' then none
      else some ({ reader with mode := mode, repeatable := false }, after)
    | [] => none
  | _, none => some (inside, text)

/-- Whether a text is an expression. Every step takes a character, so that `fuel` need not be more
than the length of the text. -/
def reads : Nat → PatternReader → Text → Bool
  | fuel, reader, text =>
    match fuel, skip reader.mode text with
    | _, [] => reader.around.isEmpty
    | 0, _ => false
    | fuel + 1, c :: rest =>
      let proceed (rest : Text) : Bool := reads fuel { reader with repeatable := true } rest
      if c = '(' then
        match readGroup reader rest with
        | none => false
        | some (reader, rest) => reads fuel reader rest
      else if c = ')' then
        match reader.around with
        | [] => false
        | mode :: around =>
          reads fuel { reader with mode := mode, around := around, repeatable := true } rest
      else if c = '|' then reads fuel { reader with repeatable := false } rest
      else if "?*+".toList.contains c then
        reader.repeatable && proceed (if rest.head? = some '?' then rest.drop 1 else rest)
      else if c = '\x7b' then false
      else if c = '^' || c = '$' then proceed rest
      else if c = '.' then reader.mode.unicode && proceed rest
      else if c = '[' then
        match (openSet reader.mode rest).bind (readSet reader.mode rest.length 0) with
        | none => false
        | some rest => reader.mode.hasCase && proceed rest
      else if c = '\\' then
        match readEscape reader.mode rest with
        | none => false
        | some (escape, rest) => (reader.mode.hasCase || escape = .place) && proceed rest
      else reader.mode.hasCase && proceed rest

/-- Whether a text with a plus sign in front is a number: digits with a point among them or beside
them, and an exponent, or a word for what is no finite number. -/
def isSignedNumber : Text → Bool
  | '+' :: rest =>
    let whole := rest.takeWhile Char.isDigit
    let afterWhole := rest.drop whole.length
    let point := afterWhole.head? = some '.'
    let part := if point then (afterWhole.drop 1).takeWhile Char.isDigit else []
    let tail := afterWhole.drop (if point then part.length + 1 else 0)
    let power := match tail.drop 1 with
      | '+' :: digits => digits
      | '-' :: digits => digits
      | digits => digits
    let hasPower := (tail.head?.map Char.toLower) = some 'e' && !power.isEmpty &&
      power.all Char.isDigit
    let words := ["inf", "infinity", "nan"].map String.toList
    words.contains (rest.map Char.toLower) ||
      (!(whole ++ part).isEmpty && (tail.isEmpty || hasPower))
  | _ => false

/-- Whether a text can be asked for as the value of a field. -/
def isValue (text : Text) : Bool :=
  isSignedNumber text || reads text.length ⟨⟨true, false, false⟩, [], [], false⟩ text

end FieldPattern

end LicenseHeader.Log
