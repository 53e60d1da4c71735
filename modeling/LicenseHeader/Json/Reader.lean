import LicenseHeader.Json.Value
import LicenseHeader.Text.Hex

/-!
# Reading JSON

`JsonValue.read` reads a text that holds one value and white space around it, and nothing when the
text breaks the grammar anywhere. Each step of the reader returns the value and the text after it.
-/

namespace LicenseHeader.JsonValue

/-- Whether a character is white space between the parts of a value. -/
def isSpace (c : Char) : Bool := c = ' ' || c = '\t' || c = '\n' || c = '\r'

/-- The text without the white space it starts with. -/
def dropSpace (text : Text) : Text := text.dropWhile isSpace

/-- The code that a character after a backslash stands for. -/
def escaped? (c : Char) : Option Nat :=
  if c = '"' || c = '\\' || c = '/' then some c.toNat
  else if c = 'b' then some 0x08
  else if c = 'f' then some 0x0C
  else if c = 'n' then some 0x0A
  else if c = 'r' then some 0x0D
  else if c = 't' then some 0x09
  else none

/-- The codes of a string up to its closing quote, and the text after it. A code is that of a
character or, when it is escaped by its number, a unit of UTF-16. -/
def readCodes : Text → Option (List Nat × Text)
  | [] => none
  | '"' :: rest => some ([], rest)
  | '\\' :: 'u' :: a :: b :: c :: d :: rest =>
    match Text.hexNumber? [a, b, c, d], readCodes rest with
    | some code, some (codes, after) => some (code :: codes, after)
    | _, _ => none
  | '\\' :: c :: rest =>
    match escaped? c, readCodes rest with
    | some code, some (codes, after) => some (code :: codes, after)
    | _, _ => none
  | c :: rest =>
    if c.toNat < 0x20 then none
    else (readCodes rest).map fun found => (c.toNat :: found.1, found.2)

/-- The text of codes, where two halves of a surrogate pair are one character; nothing when half of
a pair stands alone. -/
def ofCodes : List Nat → JsonString
  | [] => some []
  | [code] => if 0xD800 ≤ code && code < 0xE000 then none else some [Char.ofNat code]
  | high :: low :: rest =>
    if 0xD800 ≤ high && high < 0xDC00 then
      if 0xDC00 ≤ low && low < 0xE000 then
        (ofCodes rest).map
          (Char.ofNat (0x10000 + (high - 0xD800) * 0x400 + (low - 0xDC00)) :: ·)
      else none
    else if 0xDC00 ≤ high && high < 0xE000 then none
    else (ofCodes (low :: rest)).map (Char.ofNat high :: ·)

/-- The string after an opening quote, and the text after it. -/
def readString (text : Text) : Option (JsonString × Text) :=
  (readCodes text).map fun found => (ofCodes found.1, found.2)

/-- Whether a character is a decimal digit. -/
def isDigit (c : Char) : Bool := '0' ≤ c && c ≤ '9'

/-- At least one digit, and the text after the digits. -/
def readDigits (text : Text) : Option (Text × Text) :=
  if (text.takeWhile isDigit).isEmpty then none
  else some (text.takeWhile isDigit, text.dropWhile isDigit)

/-- The whole part of a number, and the text after it: one zero, or digits that start with no
zero. -/
def readWhole : Text → Option (Text × Text)
  | [] => none
  | c :: rest => if c = '0' then some ([c], rest) else readDigits (c :: rest)

/-- The fraction of a number, if it has one, and the text after it. -/
def readFraction : Text → Option (Text × Text)
  | '.' :: rest => (readDigits rest).map fun found => ('.' :: found.1, found.2)
  | text => some ([], text)

/-- The sign that may stand in front of the digits of an exponent, and the text after it. -/
def readSign : Text → Text × Text
  | '+' :: rest => (['+'], rest)
  | '-' :: rest => (['-'], rest)
  | text => ([], text)

/-- The exponent of a number, if it has one, and the text after it. -/
def readExponent : Text → Option (Text × Text)
  | [] => some ([], [])
  | c :: rest =>
    if c = 'e' || c = 'E' then
      let sign := readSign rest
      (readDigits sign.2).map fun found => (c :: sign.1 ++ found.1, found.2)
    else some ([], c :: rest)

/-- A number without a sign, and the text after it. -/
def readUnsigned (text : Text) : Option (Text × Text) := do
  let whole ← readWhole text
  let fraction ← readFraction whole.2
  let exponent ← readExponent fraction.2
  return (whole.1 ++ fraction.1 ++ exponent.1, exponent.2)

/-- A number, and the text after it. -/
def readNumber : Text → Option (Text × Text)
  | '-' :: rest => (readUnsigned rest).map fun found => ('-' :: found.1, found.2)
  | text => readUnsigned text

/-- The text after `word`, if it starts with this. -/
def afterWord? (word text : Text) : Option Text :=
  if word.isPrefixOf text then some (text.drop word.length) else none

mutual

/-- The value at the start of a text after white space, and the text after it. Every step takes a
character, so that `fuel` need not be more than the length of the text. -/
def readValue : Nat → Text → Option (JsonValue × Text)
  | 0, _ => none
  | fuel + 1, text =>
    match dropSpace text with
    | [] => none
    | c :: rest =>
      if c = '"' then (readString rest).map fun found => (.string found.1, found.2)
      else if c = '[' then
        match dropSpace rest with
        | ']' :: after => some (.array [], after)
        | _ => (readElements fuel rest).map fun found => (.array found.1, found.2)
      else if c = '\x7b' then
        match dropSpace rest with
        | '\x7d' :: after => some (.object [], after)
        | _ => (readFields fuel rest).map fun found => (.object found.1, found.2)
      else if c = 'n' then (afterWord? "ull".toList rest).map (.null, ·)
      else if c = 't' then (afterWord? "rue".toList rest).map (.bool true, ·)
      else if c = 'f' then (afterWord? "alse".toList rest).map (.bool false, ·)
      else (readNumber (c :: rest)).map fun found => (.number found.1, found.2)

/-- One element and more after commas up to a closing bracket, and the text after it. -/
def readElements : Nat → Text → Option (List JsonValue × Text)
  | 0, _ => none
  | fuel + 1, text => do
    let (element, rest) ← readValue fuel text
    match dropSpace rest with
    | ',' :: more => (readElements fuel more).map fun found => (element :: found.1, found.2)
    | ']' :: after => some ([element], after)
    | _ => none

/-- One field and more after commas up to a closing brace, and the text after it. -/
def readFields : Nat → Text → Option (List (JsonString × JsonValue) × Text)
  | 0, _ => none
  | fuel + 1, text =>
    match dropSpace text with
    | '"' :: opened => do
      let (key, rest) ← readString opened
      match dropSpace rest with
      | ':' :: rest => do
        let (value, rest) ← readValue fuel rest
        match dropSpace rest with
        | ',' :: more => (readFields fuel more).map fun found => ((key, value) :: found.1, found.2)
        | '\x7d' :: after => some ([(key, value)], after)
        | _ => none
      | _ => none
    | _ => none

end

/-- The value that a text holds. -/
def read (text : Text) : Option JsonValue := do
  let (value, rest) ← readValue (2 * text.length + 1) text
  if (dropSpace rest).isEmpty then some value else none

end LicenseHeader.JsonValue
