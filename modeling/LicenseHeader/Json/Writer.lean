import LicenseHeader.Json.Value
import LicenseHeader.Text.Hex

/-!
# Writing JSON

A value is written without any space, or over several lines that are indented by two blanks a level.
In strings only quotes, backslashes and control characters are escaped.
-/

namespace LicenseHeader.JsonValue

/-- A character as it stands in a string. -/
def escape (c : Char) : Text :=
  if c = '"' then ['\\', '"']
  else if c = '\\' then ['\\', '\\']
  else if c = '\x08' then ['\\', 'b']
  else if c = '\t' then ['\\', 't']
  else if c = '\n' then ['\\', 'n']
  else if c = '\x0C' then ['\\', 'f']
  else if c = '\r' then ['\\', 'r']
  else if c.toNat < 0x20 then
    ['\\', 'u', '0', '0', Text.hexDigit (c.toNat / 16), Text.hexDigit (c.toNat % 16)]
  else [c]

/-- A string in quotes. One that is no text is written as half of a surrogate pair. -/
def quoted (content : JsonString) : Text :=
  match content with
  | some text => '"' :: text.flatMap escape ++ ['"']
  | none => "\"\\ud800\"".toList

/-- The texts with commas between them. -/
def commas (between : Text) : List Text → Text
  | [] => []
  | [last] => last
  | first :: second :: more => first ++ ',' :: between ++ commas between (second :: more)

/-- A value without any space. -/
def compact : JsonValue → Text
  | .null => "null".toList
  | .bool value => (if value then "true" else "false").toList
  | .number text => text
  | .string content => quoted content
  | .array elements => '[' :: commas [] (compactElements elements) ++ [']']
  | .object fields => '\x7b' :: commas [] (compactFields fields) ++ ['\x7d']
where
  /-- The elements of an array without any space. -/
  compactElements : List JsonValue → List Text
    | [] => []
    | element :: more => compact element :: compactElements more
  /-- The fields of an object without any space. -/
  compactFields : List (JsonString × JsonValue) → List Text
    | [] => []
    | (key, value) :: more => (quoted key ++ ':' :: compact value) :: compactFields more

/-- The start of a line at a level of indentation. -/
def newLine (level : Nat) : Text := '\n' :: List.replicate (2 * level) ' '

/-- Lines at a level of indentation between brackets; nothing between the brackets if there are no
lines. -/
def bracketed (opening closing : Char) (level : Nat) (lines : List Text) : Text :=
  if lines.isEmpty then [opening, closing]
  else
    opening :: newLine (level + 1) ++ commas (newLine (level + 1)) lines ++ newLine level ++
      [closing]

/-- A value over several lines, at a level of indentation. -/
def prettyAt (level : Nat) : JsonValue → Text
  | .null => "null".toList
  | .bool value => (if value then "true" else "false").toList
  | .number text => text
  | .string content => quoted content
  | .array elements => bracketed '[' ']' level (prettyElements (level + 1) elements)
  | .object fields => bracketed '\x7b' '\x7d' level (prettyFields (level + 1) fields)
where
  /-- The elements of an array over several lines. -/
  prettyElements (level : Nat) : List JsonValue → List Text
    | [] => []
    | element :: more => prettyAt level element :: prettyElements level more
  /-- The fields of an object over several lines. -/
  prettyFields (level : Nat) : List (JsonString × JsonValue) → List Text
    | [] => []
    | (key, value) :: more =>
      (quoted key ++ ':' :: ' ' :: prettyAt level value) :: prettyFields level more

/-- A value over several lines. -/
def pretty (value : JsonValue) : Text := prettyAt 0 value

end LicenseHeader.JsonValue
