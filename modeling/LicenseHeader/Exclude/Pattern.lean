import LicenseHeader.Text.Line

/-!
# Patterns for paths

A pattern is written with `?` for one character, `*` for any characters, `**` as a whole component
for any directories, and brackets for one character out of a set. Only `**` goes across slashes.
`Pattern.parse` reads a pattern and says where and why a text is none.
-/

namespace LicenseHeader

/-- The characters from one to another, both included. -/
structure CharRange where
  /-- The first character. -/
  low : Char
  /-- The last character. -/
  high : Char
  deriving DecidableEq, Repr

/-- Whether a character lies in a range. -/
def CharRange.contains (range : CharRange) (c : Char) : Bool := range.low ≤ c && c ≤ range.high

/-- A part of a pattern. -/
inductive PatternToken where
  /-- One given character. -/
  | literal (c : Char)
  /-- Any one character but a slash. -/
  | anyChar
  /-- Any characters but slashes. -/
  | anySequence
  /-- Nothing, or anything up to and including a slash. -/
  | anyDirectories
  /-- One character that lies in one of the ranges, but no slash. -/
  | within (ranges : List CharRange)
  /-- One character that lies in none of the ranges, but no slash. -/
  | except (ranges : List CharRange)
  deriving DecidableEq, Repr

/-- What makes a text no pattern. -/
inductive PatternFault where
  /-- More than two stars in a row. -/
  | manyStars
  /-- Two stars beside something else than a slash or an end of the pattern. -/
  | starsInComponent
  /-- A bracket that opens no set of characters. -/
  | openBracket
  deriving DecidableEq, Repr

/-- The fault in words. -/
def PatternFault.message : PatternFault → String
  | manyStars => "wildcards are either regular `*` or recursive `**`"
  | starsInComponent => "recursive wildcards must form a single path component"
  | openBracket => "invalid range pattern"

/-- A text that is no pattern: the fault and its position, counted in characters. -/
structure PatternError where
  /-- The position near which the fault lies. -/
  position : Nat
  /-- The fault. -/
  fault : PatternFault
  deriving DecidableEq, Repr

/-- The error in words. -/
def PatternError.message (error : PatternError) : String :=
  "Pattern syntax error near position " ++ toString error.position ++ ": " ++ error.fault.message

/-- A pattern together with the text that wrote it. -/
structure Pattern where
  /-- The text of the pattern. -/
  source : String
  /-- Its parts in order. -/
  tokens : List PatternToken
  deriving DecidableEq, Repr

namespace Pattern

/-- The ranges that the inside of brackets writes: a character, a hyphen and a character are a
range, read from the left, and any other character stands for itself. -/
def ranges : Text → List CharRange
  | low :: '-' :: high :: rest => ⟨low, high⟩ :: ranges rest
  | c :: rest => ⟨c, c⟩ :: ranges rest
  | [] => []

/-- The inside of brackets and the text after the bracket that closes them. The first character is
inside whatever it is. -/
def splitSet? : Text → Option (Text × Text)
  | [] => none
  | first :: more =>
    match more.dropWhile (· ≠ ']') with
    | [] => none
    | _ :: rest => some (first :: more.takeWhile (· ≠ ']'), rest)

/-- The token of the brackets whose opening one has been read, and the text after them. -/
def readSet? : Text → Option (PatternToken × Text)
  | '!' :: inside => (splitSet? inside).map fun parts => (.except (ranges parts.1), parts.2)
  | inside => (splitSet? inside).map fun parts => (.within (ranges parts.1), parts.2)

/-- The tokens with another `**` in front of them, newest first; right after a `**` that is not the
first token it changes nothing. -/
def pushDirectories (tokens : List PatternToken) : List PatternToken :=
  if tokens.length > 1 && tokens.head? = some .anyDirectories then tokens
  else .anyDirectories :: tokens

/-- What the text after two stars has to be: nothing, or a slash, which belongs to the stars. -/
def afterStars? : Text → Option Text
  | [] => some []
  | c :: rest => if c = '/' then some rest else none

/-- What splitting off the inside of brackets leaves is shorter. -/
theorem length_of_splitSet? {text inside rest : Text}
    (found : splitSet? text = some (inside, rest)) : rest.length < text.length := by
  unfold splitSet? at found
  split at found
  · contradiction
  · rename_i first more
    split at found
    · contradiction
    · rename_i close after dropped
      obtain ⟨rfl, rfl⟩ := Prod.mk.inj (Option.some.inj found)
      have shorter := (List.dropWhile_suffix (l := more) (· ≠ ']')).length_le
      rw [dropped] at shorter
      simp only [List.length_cons] at shorter ⊢
      omega

/-- What reading brackets leaves is shorter. -/
theorem length_of_readSet? {text rest : Text} {token : PatternToken}
    (found : readSet? text = some (token, rest)) : rest.length < text.length := by
  unfold readSet? at found
  split at found <;>
  · obtain ⟨⟨inside, after⟩, split, same⟩ := Option.map_eq_some_iff.mp found
    obtain ⟨rfl, rfl⟩ := Prod.mk.inj same
    have := length_of_splitSet? split
    simp only [List.length_cons] at this ⊢
    omega

/-- What follows two stars is no longer than the text after them. -/
theorem length_of_afterStars? {text rest : Text} (found : afterStars? text = some rest) :
    rest.length ≤ text.length := by
  unfold afterStars? at found
  split at found
  · simp_all
  · split at found <;> simp_all

/-- The tokens that a text writes from `position` on. `previous` is the character before, and
`tokens` are the tokens so far, newest first. -/
def tokensFrom (position : Nat) (previous : Option Char) (tokens : List PatternToken) :
    Text → Except PatternError (List PatternToken)
  | [] => .ok tokens.reverse
  | c :: rest =>
    if c = '?' then tokensFrom (position + 1) (some c) (.anyChar :: tokens) rest
    else if c = '*' then
      if rest.head? ≠ some '*' then tokensFrom (position + 1) (some c) (.anySequence :: tokens) rest
      else if (rest.drop 1).head? = some '*' then .error ⟨position + 2, .manyStars⟩
      else if position ≠ 0 && previous ≠ some '/' then .error ⟨position - 1, .starsInComponent⟩
      else
        match after : afterStars? (rest.drop 1) with
        | none => .error ⟨position + 2, .starsInComponent⟩
        | some more =>
          tokensFrom (position + 1 + (rest.length - more.length)) (some '/')
            (pushDirectories tokens) more
    else if c = '[' then
      match read : readSet? rest with
      | none => .error ⟨position, .openBracket⟩
      | some (token, more) =>
        tokensFrom (position + 1 + (rest.length - more.length)) (some ']') (token :: tokens) more
    else tokensFrom (position + 1) (some c) (.literal c :: tokens) rest
  termination_by text => text.length
  decreasing_by
    · simp
    · simp
    · have := length_of_afterStars? after
      simp only [List.length_drop, List.length_cons] at this ⊢
      omega
    · have := length_of_readSet? read
      simp only [List.length_cons]
      omega
    · simp

/-- The pattern that a text writes. -/
def parse (source : String) : Except PatternError Pattern := do
  return ⟨source, ← tokensFrom 0 none [] source.toList⟩

/-- How matching the rest of a pattern with the rest of a text ended. -/
inductive Outcome where
  /-- The text is used up and matches. -/
  | matched
  /-- It does not match here; a wildcard before may take more of the text. -/
  | mismatch
  /-- The text ran out before the pattern, so that no wildcard before can help. -/
  | exhausted
  deriving DecidableEq, Repr

/-- Whether one character matches a token for one character. -/
def PatternToken.accepts (c : Char) : PatternToken → Bool
  | .literal expected => c = expected
  | .anyChar => c ≠ '/'
  | .within ranges => c ≠ '/' && ranges.any (·.contains c)
  | .except ranges => c ≠ '/' && !ranges.any (·.contains c)
  | .anySequence => false
  | .anyDirectories => false

/-- A run of characters without a slash taken off the text, before each of which and after all of
which `rest` is tried. -/
def matchSequence (rest : Text → Outcome) : Text → Outcome
  | [] => rest []
  | c :: text =>
    match rest (c :: text) with
    | .mismatch => if c = '/' then .mismatch else matchSequence rest text
    | decided => decided

/-- Directories taken off the text, after each slash of which `rest` is tried; when the text is used
up `rest` is tried once more. -/
def matchDirectories (rest : Text → Outcome) : Text → Outcome
  | [] => rest []
  | c :: text =>
    if c = '/' then
      match rest text with
      | .mismatch => matchDirectories rest text
      | decided => decided
    else matchDirectories rest text

/-- The outcome of matching a whole text with tokens. -/
def matchTokens : List PatternToken → Text → Outcome
  | [], text => if text.isEmpty then .matched else .mismatch
  | .anySequence :: tokens, text => matchSequence (matchTokens tokens) text
  | .anyDirectories :: tokens, text =>
    match matchTokens tokens text with
    | .mismatch => matchDirectories (matchTokens tokens) text
    | decided => decided
  | _ :: _, [] => .exhausted
  | token :: tokens, c :: text =>
    if PatternToken.accepts c token then matchTokens tokens text else .mismatch

/-- Whether a pattern matches a whole text. -/
def matchesText (pattern : Pattern) (text : Text) : Bool :=
  matchTokens pattern.tokens text = .matched

end Pattern

end LicenseHeader
