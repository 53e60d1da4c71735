import LicenseHeader.Text.Hex

/-!
# Quoted strings of the configuration

A string stands between double quotes, with escapes, or between single quotes, as it is; three
quotes on each side let it go over several lines. Each reader starts after the opening quotes and
returns the content and the text after the closing ones.
-/

namespace LicenseHeader.Config

/-- Whether a character can stand in a line: no control character but the tabulator. -/
def isPlain (c : Char) : Bool := c = '\t' || (' ' ≤ c && c ≠ '\x7F')

/-- Whether a character is a blank within a line. -/
def isIndent (c : Char) : Bool := c = ' ' || c = '\t'

/-- The text after a line feed, with or without a carriage return in front, if it starts with
one. -/
def afterNewline? : Text → Option Text
  | '\n' :: rest => some rest
  | '\r' :: '\n' :: rest => some rest
  | _ => none

/-- The character whose number hexadecimal digits write. -/
def scalar? (digits : Text) : Option Char := do
  let code ← Text.hexNumber? digits
  if code < 0xD800 || (0xE000 ≤ code && code < 0x110000) then some (Char.ofNat code) else none

/-- The character that a letter after a backslash stands for. -/
def shortEscape? (c : Char) : Option Char :=
  if c = '"' || c = '\\' then some c
  else if c = 'b' then some '\x08'
  else if c = 't' then some '\t'
  else if c = 'n' then some '\n'
  else if c = 'f' then some '\x0C'
  else if c = 'r' then some '\r'
  else if c = 'e' then some '\x1B'
  else none

/-- How many hexadecimal digits follow a letter after a backslash. -/
def escapeDigits (c : Char) : Nat :=
  if c = 'x' then 2 else if c = 'u' then 4 else if c = 'U' then 8 else 0

/-- The character that an escape stands for and the text after it; the backslash has been read. -/
def readEscape? : Text → Option (Char × Text)
  | [] => none
  | c :: rest =>
    let count := escapeDigits c
    if count = 0 then (shortEscape? c).map (·, rest)
    else if rest.length < count then none
    else (scalar? (rest.take count)).map (·, rest.drop count)

/-- What reading an escape leaves is shorter. -/
theorem length_of_readEscape? {text rest : Text} {c : Char}
    (found : readEscape? text = some (c, rest)) : rest.length < text.length := by
  cases text with
  | nil => simp [readEscape?] at found
  | cons letter after =>
    simp only [readEscape?] at found
    split at found
    · obtain ⟨_, _, same⟩ := Option.map_eq_some_iff.mp found
      obtain ⟨rfl, rfl⟩ := Prod.mk.inj same
      simp
    · split at found
      · contradiction
      · obtain ⟨_, _, same⟩ := Option.map_eq_some_iff.mp found
        obtain ⟨rfl, rfl⟩ := Prod.mk.inj same
        simp only [List.length_drop, List.length_cons]
        omega

/-- The string between double quotes. -/
def readBasic : Text → Option (Text × Text)
  | [] => none
  | c :: rest =>
    if c = '"' then some ([], rest)
    else if c = '\\' then
      match _read : readEscape? rest with
      | some (escaped, after) =>
        (readBasic after).map fun found => (escaped :: found.1, found.2)
      | none => none
    else if isPlain c then (readBasic rest).map fun found => (c :: found.1, found.2)
    else none
  termination_by text => text.length
  decreasing_by
    · exact Nat.lt_succ_of_lt (length_of_readEscape? _read)
    · exact Nat.lt_succ_self _

/-- The end of a string between three quotes: up to two quotes before the last three belong to the
string. -/
def closeThree (quote : Char) : Text → Text × Text
  | a :: b :: rest =>
    if a = quote then
      if b = quote then ([quote, quote], rest) else ([quote], b :: rest)
    else ([], a :: b :: rest)
  | [a] => if a = quote then ([quote], []) else ([], [a])
  | [] => ([], [])

/-- Whether three quotes start a text. -/
def startsThree (quote : Char) (text : Text) : Bool := [quote, quote, quote].isPrefixOf text

/-- The string between three double quotes. While `folding` white space is left out, as after a
backslash at the end of a line. -/
def readLongBasic (folding : Bool) : Text → Option (Text × Text)
  | [] => none
  | c :: rest =>
    if startsThree '"' (c :: rest) then some (closeThree '"' (rest.drop 2))
    else if c = '\n' then
      (readLongBasic folding rest).map fun found =>
        (if folding then found else (c :: found.1, found.2))
    else if c = '\r' then
      if rest.head? = some '\n' then
        (readLongBasic folding rest).map fun found =>
          (if folding then found else (c :: found.1, found.2))
      else none
    else if folding && isIndent c then readLongBasic true rest
    else if c = '\\' then
      if (afterNewline? (rest.dropWhile isIndent)).isSome then readLongBasic true rest
      else
        match _read : readEscape? rest with
        | some (escaped, after) =>
          (readLongBasic false after).map fun found => (escaped :: found.1, found.2)
        | none => none
    else if isPlain c then (readLongBasic false rest).map fun found => (c :: found.1, found.2)
    else none
  termination_by text => text.length
  decreasing_by
    · exact Nat.lt_succ_self _
    · exact Nat.lt_succ_self _
    · exact Nat.lt_succ_self _
    · exact Nat.lt_succ_self _
    · exact Nat.lt_succ_of_lt (length_of_readEscape? _read)
    · exact Nat.lt_succ_self _

/-- The string between single quotes. -/
def readLiteral : Text → Option (Text × Text)
  | [] => none
  | c :: rest =>
    if c = '\'' then some ([], rest)
    else if isPlain c then (readLiteral rest).map fun found => (c :: found.1, found.2)
    else none

/-- The string between three single quotes. -/
def readLongLiteral : Text → Option (Text × Text)
  | [] => none
  | c :: rest =>
    if startsThree '\'' (c :: rest) then some (closeThree '\'' (rest.drop 2))
    else if isPlain c || c = '\n' || (c = '\r' && rest.head? = some '\n') then
      (readLongLiteral rest).map fun found => (c :: found.1, found.2)
    else none

/-- The text after a newline, if it starts with one. -/
def dropNewline (text : Text) : Text := (afterNewline? text).getD text

/-- The string that a text starts with, and the text after it. A newline right after three opening
quotes is left out. -/
def readString? (text : Text) : Option (Text × Text) :=
  if startsThree '"' text then readLongBasic false (dropNewline (text.drop 3))
  else if startsThree '\'' text then readLongLiteral (dropNewline (text.drop 3))
  else
    match text with
    | '"' :: rest => readBasic rest
    | '\'' :: rest => readLiteral rest
    | _ => none

end LicenseHeader.Config
