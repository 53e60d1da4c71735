import LicenseHeader.Text.Line

/-!
# UTF-8

`Utf8.decode` reads bytes as text and says exactly where and why they are not UTF-8;
`Utf8.decodeLossy` reads any bytes, with a replacement character for each stretch that is no
character; `Utf8.encode` writes text as bytes. A stretch that is no character is as long as the
longest start of a character that it holds, and at least one byte.
-/

namespace LicenseHeader

/-- The content of a file as it is stored. -/
abbrev Bytes := List UInt8

namespace Utf8

/-- What stands at the start of a non-empty list of bytes. -/
inductive Head where
  /-- A character and how many bytes follow its first byte. -/
  | char (c : Char) (more : Nat)
  /-- Bytes that no character starts with; `more` of them follow the first. -/
  | invalid (more : Nat)
  /-- The start of a character that the bytes end in. -/
  | cut
  deriving DecidableEq, Repr

/-- The six bits that a byte after the first carries. -/
def tailBits (b : UInt8) : Nat := b.toNat - 0x80

/-- Whether a byte can follow the first byte of a character. -/
def isTail (b : UInt8) : Bool := 0x80 ≤ b && b ≤ 0xBF

/-- Whether `second` can follow the first byte `first` of a character of three or four bytes: the
bounds keep out longer forms of shorter characters, surrogates and numbers above the last code
point. -/
def isSecond (first second : UInt8) : Bool :=
  let low : UInt8 := if first = 0xE0 then 0xA0 else if first = 0xF0 then 0x90 else 0x80
  let high : UInt8 := if first = 0xED then 0x9F else if first = 0xF4 then 0x8F else 0xBF
  low ≤ second && second ≤ high

/-- A character of two bytes. -/
def headOfTwo (first : UInt8) : Bytes → Head
  | [] => .cut
  | second :: _ =>
    if isTail second then .char (Char.ofNat ((first.toNat - 0xC0) * 64 + tailBits second)) 1
    else .invalid 0

/-- A character of three bytes. -/
def headOfThree (first : UInt8) : Bytes → Head
  | [] => .cut
  | second :: rest =>
    if isSecond first second then
      match rest with
      | [] => .cut
      | third :: _ =>
        if isTail third then
          .char (Char.ofNat
            ((first.toNat - 0xE0) * 4096 + tailBits second * 64 + tailBits third)) 2
        else .invalid 1
    else .invalid 0

/-- A character of four bytes. -/
def headOfFour (first : UInt8) : Bytes → Head
  | [] => .cut
  | second :: rest =>
    if isSecond first second then
      match rest with
      | [] => .cut
      | third :: rest =>
        if isTail third then
          match rest with
          | [] => .cut
          | fourth :: _ =>
            if isTail fourth then
              .char (Char.ofNat ((first.toNat - 0xF0) * 262144 + tailBits second * 4096 +
                tailBits third * 64 + tailBits fourth)) 3
            else .invalid 2
        else .invalid 1
    else .invalid 0

/-- What the first byte and the bytes after it start with. -/
def head (first : UInt8) (rest : Bytes) : Head :=
  if first < 0x80 then .char (Char.ofNat first.toNat) 0
  else if 0xC2 ≤ first && first ≤ 0xDF then headOfTwo first rest
  else if 0xE0 ≤ first && first ≤ 0xEF then headOfThree first rest
  else if 0xF0 ≤ first && first ≤ 0xF4 then headOfFour first rest
  else .invalid 0

/-- Why bytes are not UTF-8. -/
inductive Fault where
  /-- The `length` bytes from position `index` on start no character. -/
  | invalid (length index : Nat)
  /-- The bytes end inside the character that starts at position `index`. -/
  | incomplete (index : Nat)
  deriving DecidableEq, Repr

/-- The fault in words. -/
def Fault.message : Fault → String
  | .invalid length index =>
    "invalid utf-8 sequence of " ++ toString length ++ " bytes from index " ++ toString index
  | .incomplete index => "incomplete utf-8 byte sequence from index " ++ toString index

/-- The text that bytes hold, where `index` is the position of the first of them. -/
def decodeFrom (index : Nat) : Bytes → Except Fault Text
  | [] => .ok []
  | first :: rest =>
    match head first rest with
    | .char c more => do
      let text ← decodeFrom (index + 1 + more) (rest.drop more)
      return c :: text
    | .invalid more => .error (.invalid (more + 1) index)
    | .cut => .error (.incomplete index)
  termination_by bytes => bytes.length
  decreasing_by simp only [List.length_drop, List.length_cons]; omega

/-- The text that bytes hold, or the first fault in them. -/
def decode (bytes : Bytes) : Except Fault Text := decodeFrom 0 bytes

/-- The character that stands for bytes that are none. -/
def replacement : Char := '\uFFFD'

/-- The text that bytes hold, with a replacement character for each stretch that is no character. -/
def decodeLossy : Bytes → Text
  | [] => []
  | first :: rest =>
    match head first rest with
    | .char c more => c :: decodeLossy (rest.drop more)
    | .invalid more => replacement :: decodeLossy (rest.drop more)
    | .cut => [replacement]
  termination_by bytes => bytes.length
  decreasing_by all_goals simp only [List.length_drop, List.length_cons]; omega

/-- The bytes of one character. -/
def encodeChar (c : Char) : Bytes :=
  let n := c.toNat
  if n < 0x80 then [UInt8.ofNat n]
  else if n < 0x800 then [UInt8.ofNat (0xC0 + n / 64), UInt8.ofNat (0x80 + n % 64)]
  else if n < 0x10000 then
    [UInt8.ofNat (0xE0 + n / 4096), UInt8.ofNat (0x80 + n / 64 % 64), UInt8.ofNat (0x80 + n % 64)]
  else
    [UInt8.ofNat (0xF0 + n / 262144), UInt8.ofNat (0x80 + n / 4096 % 64),
      UInt8.ofNat (0x80 + n / 64 % 64), UInt8.ofNat (0x80 + n % 64)]

/-- The bytes of a text. -/
def encode (text : Text) : Bytes := text.flatMap encodeChar

end Utf8

end LicenseHeader
