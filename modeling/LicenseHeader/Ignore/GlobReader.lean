import LicenseHeader.Glob.Basic

/-!
# Globs of ignore files

A glob of an ignore file is written with `?`, `*`, `**`, sets in brackets and choices in braces. A
backslash takes the character after it literally. A set whose bracket is never closed makes this
bracket and all later ones stand for themselves.
-/

namespace LicenseHeader

namespace Glob

/-- The bytes of the characters from one to another; none if they are in the wrong order. -/
def rangeBytes? (low high : Char) : Option Bytes :=
  let lowBytes := Utf8.encodeChar low
  let highBytes := Utf8.encodeChar high
  if high < low then none
  else if low = high then some lowBytes
  else
    match lowBytes.getLast?, highBytes with
    | some first, last :: more =>
      let between := (List.range 256).filter fun n => first.toNat ≤ n && n ≤ last.toNat
      some (lowBytes.dropLast ++ between.map UInt8.ofNat ++ more)
    | _, _ => none

/-- The bytes of ranges; none if one of them is in the wrong order. -/
def setBytes? (ranges : List (Char × Char)) : Option Bytes :=
  (ranges.mapM fun range => rangeBytes? range.1 range.2).map (·.flatten)

/-- What follows an opening bracket. -/
inductive SetReading where
  /-- The closing bracket is missing. -/
  | unclosed
  /-- The ends of a range are in the wrong order. -/
  | reversed
  /-- The ranges of a set, and the text after it. -/
  | closed (ranges : List (Char × Char)) (rest : Text)

/-- The ranges in brackets up to the closing one. `done` are the ranges read, newest first, and
`waiting` says whether a hyphen waits for the end of the newest range. -/
def readRanges (done : List (Char × Char)) (waiting : Bool) : Text → SetReading
  | [] => .unclosed
  | c :: rest =>
    match done with
    | [] => readRanges [(c, c)] false rest
    | (low, high) :: more =>
      if c = ']' then .closed ((if waiting then [('-', '-')] else []) ++ done) rest
      else if waiting then
        if c < low then .reversed else readRanges ((low, c) :: more) false rest
      else if c = '-' then readRanges done true rest
      else readRanges ((c, c) :: (low, high) :: more) false rest

/-- A set after its opening bracket, and whether it is the set of what is left out. -/
def readSet : Text → Bool × SetReading
  | [] => (false, .unclosed)
  | c :: rest =>
    if c = '!' || c = '^' then (true, readRanges [] false rest)
    else (false, readRanges [] false (c :: rest))

/-- The token for one of the bytes, or for one that is none of them. -/
def setToken (negated : Bool) (bytes : Bytes) : GlobToken :=
  .oneOf (.ofPredicate fun b => bytes.contains b != negated)

/-- The choice between nothing, which is as if it were not written. -/
def noChoice : GlobToken := .choice [[]]

/-- Whether a token is the choice between nothing. -/
def isNoChoice : GlobToken → Bool
  | .choice [[]] => true
  | _ => false

/-- The part of a glob that is being read: the finished alternatives of a choice, and the tokens of
the one under way, all newest first. -/
structure Frame where
  /-- The finished alternatives. -/
  alternatives : List (List GlobToken)
  /-- The tokens under way. -/
  tokens : List GlobToken

/-- The frame with another token. -/
def Frame.push (frame : Frame) (token : GlobToken) : Frame :=
  { frame with tokens := token :: frame.tokens }

/-- The frame with the alternative under way finished. -/
def Frame.next (frame : Frame) : Frame := ⟨frame.tokens.reverse :: frame.alternatives, []⟩

/-- The choice between the alternatives of a frame; those that say nothing do not count. -/
def Frame.choice (frame : Frame) : GlobToken :=
  let alternatives := frame.next.alternatives.filter fun tokens => !tokens.all isNoChoice
  if alternatives.isEmpty then noChoice else .choice alternatives

/-- The frame with the token for two stars after a slash, which belongs to it, in place of the
slash. -/
def Frame.pushDirectories (frame : Frame) (token : GlobToken) : Frame :=
  match frame.tokens with
  | .leading :: _ => frame
  | .trailing :: _ => frame
  | _ :: more => { frame with tokens := token :: more }
  | [] => { frame with tokens := [token] }

/-- The frame after two stars, and whether the slash after them belongs to them. `previous` is the
character before them and `rest` the text after them. Stars that are no whole name are a sequence.
-/
def Frame.pushStars (frame : Frame) (nested : Bool) (previous : Option Char) (rest : Text) :
    Frame × Bool :=
  let plain : Frame × Bool := (frame.push .sequence, false)
  if frame.tokens.isEmpty then
    match rest with
    | [] => (frame.push .leading, false)
    | c :: _ => if c = '/' then (frame.push .leading, true) else plain
  else if previous ≠ some '/' && !(nested && (previous = some ',' || previous = some '\x7b')) then
    plain
  else
    match rest with
    | [] => (frame.pushDirectories .trailing, false)
    | c :: _ =>
      if c = '/' then (frame.pushDirectories .inner, true)
      else if nested && (c = ',' || c = '\x7d') then (frame.pushDirectories .trailing, false)
      else plain

/-- The tokens that a text writes after `previous`; `frame` is being read and `outer` are the frames
around it, the nearest first; `literal` says that brackets stand for themselves. Every step takes a
character, so that `fuel` need not be more than the length of the text. -/
def readFrom :
    Nat → Bool → Option Char → List Frame → Frame → Text → Option (List GlobToken)
  | _, _, _, [], frame, [] => some frame.tokens.reverse
  | _, _, _, _ :: _, _, [] => none
  | 0, _, _, _, _, _ :: _ => none
  | fuel + 1, literal, previous, outer, frame, c :: rest =>
    let pushChar (c : Char) : Frame :=
      (Utf8.encodeChar c).foldl (fun frame b => frame.push (.byte b)) frame
    if c = '?' then readFrom fuel literal (some c) outer (frame.push .any) rest
    else if c = '*' then
      match rest with
      | '*' :: after =>
        let pushed := frame.pushStars (!outer.isEmpty) previous after
        if pushed.2 then readFrom fuel literal (some '/') outer pushed.1 (after.drop 1)
        else readFrom fuel literal (some '*') outer pushed.1 after
      | _ => readFrom fuel literal (some c) outer (frame.push .sequence) rest
    else if c = '[' && !literal then
      match readSet rest with
      | (negated, .closed ranges after) =>
        match setBytes? ranges with
        | some bytes =>
          readFrom fuel literal (some ']') outer (frame.push (setToken negated bytes)) after
        | none => none
      | (_, .reversed) => none
      | (_, .unclosed) => readFrom fuel true (some c) outer (pushChar c) rest
    else if c = '\\' then
      match rest with
      | [] => none
      | escaped :: after => readFrom fuel literal (some escaped) outer (pushChar escaped) after
    else if c = '\x7b' then
      readFrom fuel literal (some c) (frame :: outer) ⟨[], []⟩ rest
    else if c = '\x7d' then
      match outer with
      | [] => none
      | enclosing :: outer =>
        readFrom fuel literal (some c) outer (enclosing.push frame.choice) rest
    else if c = ',' && !outer.isEmpty then
      readFrom fuel literal (some c) outer frame.next rest
    else readFrom fuel literal (some c) outer (pushChar c) rest

/-- The glob that a text writes. Directories with nothing after them are anything. -/
def read (text : Text) : Option (List GlobToken) :=
  (readFrom text.length false none [] ⟨[], []⟩ text).map fun tokens =>
    match tokens with
    | [.leading] => [.anything]
    | _ => tokens

end Glob

end LicenseHeader
