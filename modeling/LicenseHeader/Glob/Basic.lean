import LicenseHeader.Glob.ByteSet
import LicenseHeader.Path.Basic

/-!
# Globs

A glob is a list of tokens that have to match the bytes of a whole path one after the other. It is
matched from its last token to the first: for every suffix of the path it is known whether the
tokens read so far match it, and each token takes one pass over these answers. The work is thus the
product of both lengths, however many stars there are.
-/

namespace LicenseHeader

/-- A part of a glob. -/
inductive GlobToken where
  /-- One given byte. -/
  | byte (b : UInt8)
  /-- One byte of a set. -/
  | oneOf (set : ByteSet)
  /-- Any bytes of a set. -/
  | manyOf (set : ByteSet)
  /-- Any directories in front of the rest. -/
  | leading
  /-- A slash, or directories between two slashes. -/
  | inner
  /-- A slash and anything after it. -/
  | trailing
  /-- Any of the given globs. -/
  | choice (alternatives : List (List GlobToken))

namespace GlobToken

/-- All bytes but the slash, which stay within one name. -/
def nameBytes : ByteSet := .ofPredicate (· ≠ Path.slash)

/-- All bytes. -/
def allBytes : ByteSet := .ofPredicate fun _ => true

/-- Any one byte but a slash. -/
def any : GlobToken := .oneOf nameBytes

/-- Any bytes but slashes. -/
def sequence : GlobToken := .manyOf nameBytes

/-- Any bytes. -/
def anything : GlobToken := .manyOf allBytes

end GlobToken

namespace Glob

/-- The answers for a token that takes one byte, from the answers for what follows it. -/
def takeOne (holds : UInt8 → Bool) : Bytes → List Bool → List Bool
  | b :: path, _ :: after => (holds b && after.headD false) :: takeOne holds path after
  | _, _ => [false]

/-- The answers for a token that takes any bytes with a property. -/
def takeMany (holds : UInt8 → Bool) : Bytes → List Bool → List Bool
  | b :: path, here :: after =>
    let later := takeMany holds path after
    (here || (holds b && later.headD false)) :: later
  | _, after => after

/-- The answers for a token that takes any bytes up to a slash and this slash. -/
def takeDirectories (path : Bytes) (after : List Bool) : List Bool :=
  takeMany (fun _ => true) path (takeOne (· = Path.slash) path after)

/-- Where one of two globs matches. -/
def either (left right : List Bool) : List Bool := left.zipWith (· || ·) right

mutual

/-- For every suffix of a path, whether a token and what follows it match; `after` are the answers
for what follows. -/
def answers : GlobToken → Bytes → List Bool → List Bool
  | .byte expected, path, after => takeOne (· = expected) path after
  | .oneOf set, path, after => takeOne set.contains path after
  | .manyOf set, path, after => takeMany set.contains path after
  | .leading, path, after => either after (takeDirectories path after)
  | .inner, path, after =>
    takeOne (· = Path.slash) path (either after (takeDirectories path after))
  | .trailing, path, after =>
    takeOne (· = Path.slash) path (takeMany (fun _ => true) path after)
  | .choice alternatives, path, after => answersOfAny alternatives path after

/-- The answers for tokens one after the other. -/
def answersOfAll : List GlobToken → Bytes → List Bool → List Bool
  | [], _, after => after
  | token :: tokens, path, after => answers token path (answersOfAll tokens path after)

/-- The answers for several globs of which one has to match. -/
def answersOfAny : List (List GlobToken) → Bytes → List Bool → List Bool
  | [], _, after => after.map fun _ => false
  | tokens :: more, path, after =>
    either (answersOfAll tokens path after) (answersOfAny more path after)

end

/-- Whether a glob matches a whole path: after all tokens only the empty suffix may be left. -/
def accepts (tokens : List GlobToken) (path : Bytes) : Bool :=
  (answersOfAll tokens path (path.map (fun _ => false) ++ [true])).headD false

end Glob

end LicenseHeader
