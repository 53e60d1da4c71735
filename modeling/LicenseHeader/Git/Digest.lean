import LicenseHeader.Text.Utf8

/-!
# Digests

The SHA-1 digest of bytes, by which a file of a repository tells that it is whole. The bytes are
filled up to blocks of sixteen words, and every block changes a state of five words.
-/

namespace LicenseHeader

namespace Digest

/-- A word as four bytes, the most significant first. -/
def wordBytes (word : UInt32) : Bytes :=
  [(word >>> 24).toUInt8, (word >>> 16).toUInt8, (word >>> 8).toUInt8, word.toUInt8]

/-- The words that bytes write, four for each. -/
def words : Bytes → List UInt32
  | a :: b :: c :: d :: rest =>
    ((a.toUInt32 <<< 24) ||| (b.toUInt32 <<< 16) ||| (c.toUInt32 <<< 8) ||| d.toUInt32) ::
      words rest
  | _ => []

/-- A word with its digits moved to the left, where they come in again on the right. -/
def rotate (word : UInt32) (places : UInt32) : UInt32 :=
  (word <<< places) ||| (word >>> (32 - places))

/-- The five words that a digest is made from. -/
structure State where
  /-- The first word. -/
  a : UInt32
  /-- The second word. -/
  b : UInt32
  /-- The third word. -/
  c : UInt32
  /-- The fourth word. -/
  d : UInt32
  /-- The fifth word. -/
  e : UInt32
  deriving DecidableEq, Repr

/-- The words before any block. -/
def initial : State := ⟨0x67452301, 0xEFCDAB89, 0x98BADCFE, 0x10325476, 0xC3D2E1F0⟩

/-- Two states added word by word. -/
def State.add (left right : State) : State :=
  ⟨left.a + right.a, left.b + right.b, left.c + right.c, left.d + right.d, left.e + right.e⟩

/-- The state after one round, with the given number and word. -/
def round (state : State) (number : Nat) (word : UInt32) : State :=
  let (mixed, constant) : UInt32 × UInt32 :=
    if number < 20 then
      ((state.b &&& state.c) ||| ((state.b ^^^ 0xFFFFFFFF) &&& state.d), 0x5A827999)
    else if number < 40 then (state.b ^^^ state.c ^^^ state.d, 0x6ED9EBA1)
    else if number < 60 then
      ((state.b &&& state.c) ||| (state.b &&& state.d) ||| (state.c &&& state.d), 0x8F1BBCDC)
    else (state.b ^^^ state.c ^^^ state.d, 0xCA62C1D6)
  ⟨rotate state.a 5 + mixed + state.e + constant + word, state.a, rotate state.b 30, state.c,
    state.d⟩

/-- The word that follows sixteen words. -/
def nextWord (window : List UInt32) : UInt32 :=
  rotate (window.getD 13 0 ^^^ window.getD 8 0 ^^^ window.getD 2 0 ^^^ window.getD 0 0) 1

/-- The state after the rounds from `number` on, of which `rounds` are left; `window` are the next
sixteen words. -/
def runRounds (state : State) (number : Nat) (window : List UInt32) : Nat → State
  | 0 => state
  | rounds + 1 =>
    runRounds (round state number (window.headD 0)) (number + 1)
      (window.drop 1 ++ [nextWord window]) rounds

/-- The state after blocks of sixteen words, of which `count` are left. -/
def runBlocks (state : State) (text : List UInt32) : Nat → State
  | 0 => state
  | count + 1 => runBlocks (state.add (runRounds state 0 (text.take 16) 80)) (text.drop 16) count

/-- The bytes filled up to whole blocks: a set digit, zeros, and the number of digits at the end. -/
def filled (bytes : Bytes) : Bytes :=
  let zeros := (119 - bytes.length % 64) % 64
  let digits := bytes.length * 8
  bytes ++ 0x80 :: List.replicate zeros 0 ++
    wordBytes (UInt32.ofNat (digits / 0x100000000)) ++ wordBytes (UInt32.ofNat digits)

/-- The digest of bytes. -/
def ofBytes (bytes : Bytes) : Bytes :=
  let text := filled bytes
  let last := runBlocks initial (words text) (text.length / 64)
  [last.a, last.b, last.c, last.d, last.e].flatMap wordBytes

/-- How many bytes a digest has. -/
def size : Nat := 20

/-- All digests have the same size. -/
theorem length_ofBytes (bytes : Bytes) : (ofBytes bytes).length = size := by
  simp [ofBytes, wordBytes, size]

/-- What is filled up is a whole number of blocks. -/
theorem length_filled (bytes : Bytes) : (filled bytes).length % 64 = 0 := by
  simp only [filled, wordBytes, List.length_append, List.length_cons, List.length_replicate,
    List.length_nil]
  omega

end Digest

end LicenseHeader
