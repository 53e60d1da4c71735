import LicenseHeader.Config.Quoted

/-!
# Configuration documents

The configuration is a document in the TOML format that holds nothing, or one key, `exclude`, with
an array of strings. `Config.readDocument?` returns the strings, and nothing for any other text: all
other keys, tables and values are refused.
-/

namespace LicenseHeader.Config

/-- The text after blanks, newlines and comments; `comment` says whether it starts within a comment.
Nothing if a comment holds a character that cannot stand in a line. -/
def dropGap (comment : Bool) : Text → Option Text
  | [] => some []
  | '\r' :: '\n' :: rest => dropGap false rest
  | c :: rest =>
    if c = '\n' then dropGap false rest
    else if comment then if isPlain c then dropGap true rest else none
    else if isIndent c then dropGap false rest
    else if c = '#' then dropGap true rest
    else some (c :: rest)

/-- What is left after a gap is no longer than the text. -/
theorem length_of_dropGap {comment : Bool} {text rest : Text}
    (found : dropGap comment text = some rest) : rest.length ≤ text.length := by
  fun_induction dropGap comment text <;> simp_all <;> omega

/-- The strings of an array whose opening bracket has been read, and the text after its closing one;
`fuel` bounds how many strings there are. -/
def readArray? : Nat → Text → Option (List Text × Text)
  | 0, _ => none
  | fuel + 1, text => do
    match ← dropGap false text with
    | ']' :: rest => some ([], rest)
    | found =>
      let (item, rest) ← readString? found
      match ← dropGap false rest with
      | ']' :: rest => some ([item], rest)
      | ',' :: rest =>
        let (items, rest) ← readArray? fuel rest
        some (item :: items, rest)
      | _ => none

/-- Whether a character can stand in a key without quotes. -/
def isKeyChar (c : Char) : Bool := c.isAlphanum || c = '_' || c = '-'

/-- The key that a text starts with, and the text after it. -/
def readKey? (text : Text) : Option (Text × Text) :=
  match text with
  | '"' :: rest => readBasic rest
  | '\'' :: rest => readLiteral rest
  | _ => some (text.takeWhile isKeyChar, text.dropWhile isKeyChar)

/-- The text without the blanks it starts with. -/
def dropIndent (text : Text) : Text := text.dropWhile isIndent

/-- The byte order mark that may stand in front of a document. -/
def dropMark : Text → Text
  | [] => []
  | c :: rest => if c = '\uFEFF' then rest else c :: rest

/-- The only key of a document. -/
def excludeKey : Text := "exclude".toList

/-- Whether a text after a value is the rest of its line and then nothing but gaps. -/
def endsDocument (text : Text) : Bool :=
  let after := dropIndent text
  (after.isEmpty || after.head? = some '#' || (afterNewline? after).isSome) &&
    dropGap false after = some []

/-- The strings that the document of a text excludes. -/
def readDocument? (text : Text) : Option (List Text) := do
  match ← dropGap false (dropMark text) with
  | [] => some []
  | found =>
    let (key, rest) ← readKey? found
    if key ≠ excludeKey then none
    else
      match dropIndent rest with
      | '=' :: rest =>
        match dropIndent rest with
        | '[' :: rest =>
          let (items, rest) ← readArray? rest.length rest
          if endsDocument rest then some items else none
        | _ => none
      | _ => none

end LicenseHeader.Config
