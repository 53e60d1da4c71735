import LicenseHeader.Glob.Basic
import LicenseHeader.Text.Ascii

/-!
# Wildcards of repositories

The globs of a repository are bytes with `?`, `*`, `**` and sets in brackets; a backslash takes the
byte after it literally. They match whole paths, where only `**` as a whole name crosses slashes, or
plain names, where slashes are bytes like any other. A glob in which a set is not closed or a
backslash comes last matches nothing.
-/

namespace LicenseHeader

/-- How a wildcard is matched. -/
structure WildcardMode where
  /-- Whether slashes divide what is matched. -/
  paths : Bool
  /-- Whether capital letters are matched as small ones. -/
  folded : Bool
  deriving DecidableEq, Repr

/-- The byte as it is compared. -/
def WildcardMode.fold (mode : WildcardMode) (byte : UInt8) : UInt8 :=
  if mode.folded then Ascii.lower byte else byte

namespace Wildcard

/-- The bytes from one to another; a small letter that is matched for a capital one counts when
either is between them. -/
def range (mode : WildcardMode) (low high : UInt8) : ByteSet :=
  let between (byte : UInt8) : Bool := low ≤ byte && byte ≤ high
  .ofPredicate fun byte =>
    between byte || (mode.folded && Ascii.isLower byte && between (Ascii.upper byte))

/-- The set of bytes that a name in brackets and colons stands for. -/
def classOf? (mode : WildcardMode) (name : Bytes) : Option ByteSet :=
  let known : List (String × (UInt8 → Bool)) :=
    [("alnum", Ascii.isAlphanumeric), ("alpha", Ascii.isAlpha),
      ("blank", fun b => b = 0x20 || b = 0x09), ("cntrl", fun b => b < 0x20 || b = 0x7F),
      ("digit", Ascii.isDigit), ("graph", fun b => 0x20 < b && b < 0x7F),
      ("lower", Ascii.isLower), ("print", fun b => 0x20 ≤ b && b < 0x7F),
      ("punct", fun b => 0x20 < b && b < 0x7F && !Ascii.isAlphanumeric b),
      ("space", Ascii.isSpace),
      ("upper", fun b => Ascii.isUpper b || (mode.folded && Ascii.isLower b)),
      ("xdigit", Ascii.isHexDigit)]
  (known.find? fun pair => Ascii.bytes pair.1 = name).map fun pair => .ofPredicate pair.2

/-- The bytes in brackets and the text after the closing one. `set` holds the bytes read so far,
`previous` is the byte that a range could start with, and a closing bracket that is `first` stands
for itself. Every step takes a byte, so that `fuel` need not be more than the length of the text. -/
def readSet (mode : WildcardMode) :
    Nat → ByteSet → Option UInt8 → Bool → Bytes → Option (ByteSet × Bytes)
  | 0, _, _, _, _ => none
  | _, _, _, _, [] => none
  | fuel + 1, set, previous, first, byte :: rest =>
    let plain := readSet mode fuel (set.union (.single byte)) (some byte) false rest
    if byte = Ascii.byte ']' && !first then some (set, rest)
    else if byte = Ascii.byte '\\' then
      match rest with
      | [] => none
      | escaped :: rest => readSet mode fuel (set.union (.single escaped)) (some escaped) false rest
    else if byte = Ascii.byte '-' then
      match previous, rest with
      | some low, high :: more =>
        if high = Ascii.byte ']' then plain
        else if high = Ascii.byte '\\' then
          match more with
          | [] => none
          | high :: more => readSet mode fuel (set.union (range mode low high)) none false more
        else readSet mode fuel (set.union (range mode low high)) none false more
      | _, _ => plain
    else if byte = Ascii.byte '[' && rest.head? = some (Ascii.byte ':') then
      let name := (rest.drop 1).takeWhile (· ≠ Ascii.byte ']')
      match (rest.drop 1).dropWhile (· ≠ Ascii.byte ']') with
      | [] => none
      | _ :: after =>
        if name.getLast? ≠ some (Ascii.byte ':') then plain
        else
          match classOf? mode name.dropLast with
          | none => none
          | some members => readSet mode fuel (set.union members) none false after
    else plain

/-- The token for a set whose opening bracket has been read, and the text after it. -/
def readBrackets (mode : WildcardMode) (text : Bytes) : Option (GlobToken × Bytes) :=
  let negated := text.head? = some (Ascii.byte '!') || text.head? = some (Ascii.byte '^')
  (readSet mode text.length .empty none true (if negated then text.drop 1 else text)).map
    fun (set, rest) =>
      (.oneOf (.ofPredicate fun byte =>
        set.contains (mode.fold byte) != negated && !(mode.paths && byte = Path.slash)), rest)

/-- The token for one byte that stands for itself; capital letters are matched as small ones. -/
def literal (mode : WildcardMode) (byte : UInt8) : GlobToken :=
  if mode.folded then .oneOf (.ofPredicate fun other => Ascii.lower other = byte) else .byte byte

/-- Whether a slash comes first, also one that is escaped. -/
def startsWithSlash (text : Bytes) : Bool :=
  text.head? = some Path.slash || [Ascii.byte '\\', Path.slash].isPrefixOf text

/-- The tokens that a text writes after `previous`; nothing when it matches nothing. Every step
takes a byte, so that `fuel` need not be more than the length of the text. -/
def readFrom (mode : WildcardMode) : Nat → Option UInt8 → Bytes → Option (List GlobToken)
  | _, _, [] => some []
  | 0, _, _ :: _ => none
  | fuel + 1, previous, byte :: rest =>
    let proceed (token : GlobToken) (last : UInt8) (rest : Bytes) : Option (List GlobToken) :=
      (readFrom mode fuel (some last) rest).map (token :: ·)
    if byte = Ascii.byte '\\' then
      match rest with
      | [] => none
      | escaped :: rest => proceed (literal mode escaped) escaped rest
    else if byte = Ascii.byte '?' then
      proceed (if mode.paths then .any else .oneOf GlobToken.allBytes) byte rest
    else if byte = Ascii.byte '*' then
      let after := rest.dropWhile (· = Ascii.byte '*')
      let whole := rest.head? = some byte && (previous = none || previous = some Path.slash) &&
        (after.isEmpty || startsWithSlash after)
      if !mode.paths then proceed .anything byte after
      else if !whole then proceed .sequence byte after
      else
        match after with
        | b :: more =>
          if b = Path.slash then proceed .leading b more else proceed .anything byte after
        | [] => proceed .anything byte after
    else if byte = Ascii.byte '[' then
      match readBrackets mode rest with
      | none => none
      | some (token, rest) => proceed token (Ascii.byte ']') rest
    else proceed (literal mode (mode.fold byte)) byte rest

/-- The glob that a text writes; nothing when it matches nothing. -/
def read (mode : WildcardMode) (text : Bytes) : Option (List GlobToken) :=
  readFrom mode text.length none text

/-- Whether a text, read as a glob, matches another. -/
def accepts (mode : WildcardMode) (text subject : Bytes) : Bool :=
  ((read mode text).map (Glob.accepts · subject)).getD false

end Wildcard

end LicenseHeader
