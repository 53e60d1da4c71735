import LicenseHeader.Text.Line

/-!
# JSON values

A JSON value as it is written and read. Numbers are kept as they are written, and the fields of an
object in their order. A string that holds half of a surrogate pair alone is no text.
-/

namespace LicenseHeader

/-- What a JSON string holds: a text, or nothing when it is no text. -/
abbrev JsonString := Option Text

/-- A JSON value. -/
inductive JsonValue where
  /-- The value `null`. -/
  | null
  /-- A truth value. -/
  | bool (value : Bool)
  /-- A number as it is written. -/
  | number (text : Text)
  /-- A string. -/
  | string (content : JsonString)
  /-- The elements of an array. -/
  | array (elements : List JsonValue)
  /-- The fields of an object. -/
  | object (fields : List (JsonString × JsonValue))

namespace JsonValue

/-- The value of a text. -/
def ofText (text : Text) : JsonValue := .string (some text)

/-- The value of a whole number. -/
def ofNat (n : Nat) : JsonValue := .number (toString n).toList

/-- The object with the given fields. -/
def ofFields (fields : List (String × JsonValue)) : JsonValue :=
  .object (fields.map fun field => (some field.1.toList, field.2))

end JsonValue

end LicenseHeader
