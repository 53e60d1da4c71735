import LicenseHeader.Git.Repository

/-!
# Heads of repositories

A reference is a file that holds the digest of an object or the name of another reference. The head
is one of them, and before a repository can be listed it has to lead on: to an object, which may be
missing but not broken, or to a reference that is not there yet. A reference without a file of its
own may stand in a file that holds many of them.
-/

namespace LicenseHeader

/-- What a reference leads to. -/
inductive Reference where
  /-- The object with a digest, in hexadecimal digits. -/
  | object (digest : Bytes)
  /-- The reference of a name. -/
  | symbolic (name : Bytes)
  deriving DecidableEq, Repr

namespace Reference

/-- How many bytes the hexadecimal digits of a digest take. -/
def digitCount : Nat := 2 * Digest.size

/-- Whether bytes start with the hexadecimal digits of a digest. -/
def startsWithDigest (text : Bytes) : Bool :=
  digitCount ≤ text.length && (text.take digitCount).all Ascii.isHexDigit

/-- What the file of the reference of a name leads to. -/
def ofContent (name content : Bytes) : Except ReferenceFault Reference :=
  let mark := SettingsFile.symbolicMark
  if mark.isPrefixOf content then
    let text := Ascii.dropSpacesEnd content
    if text.length ≤ mark.length then .error (.unreadable none)
    else .ok (.symbolic ((text.drop mark.length).takeWhile (· ≠ 0)))
  else
    let ends := (content[digitCount]?.map fun b => b = 0 || Ascii.isSpace b).getD true
    if startsWithDigest content && ends then .ok (.object (content.take digitCount))
    else .error (.unreadable (some name))

/-- Whether a byte can stand in the name of a reference. -/
def isNameByte (b : UInt8) : Bool :=
  0x20 < b && !(Ascii.bytes "~^:\\?[*").contains b

/-- Whether bytes stand next to each other somewhere in others. -/
def hasInside (part : Bytes) : Bytes → Bool
  | [] => part.isEmpty
  | b :: rest => part.isPrefixOf (b :: rest) || hasInside part rest

/-- Whether bytes can stand between the slashes of the name of a reference. -/
def isSegment (segment : Bytes) : Bool :=
  segment.all isNameByte && segment.head? ≠ some (Ascii.byte '.') &&
    !hasInside (Ascii.bytes "..") segment && !hasInside (Ascii.bytes "@\x7b") segment &&
    !(Ascii.bytes ".lock").isSuffixOf segment

/-- Whether a segment is written like the head: in capital letters, and low lines between them. -/
def isCapital (segment : Bytes) : Bool :=
  let line := Ascii.byte '_'
  segment.all (fun b => Ascii.isUpper b || b = line) && segment.head? ≠ some line &&
    segment.getLast? ≠ some line

/-- How many bytes the name of a reference may have. -/
def nameLimit : Nat := 1023

/-- Whether bytes are the name of a reference. A name in capital letters stands alone, and all
others have a slash. -/
def isName (name : Bytes) : Bool :=
  let segments := Path.pieces name
  let first := segments.headD []
  segments.all isSegment && name.head? ≠ some Path.slash && !name.isEmpty &&
    name.getLast? ≠ some (Ascii.byte '.') && name.getLast? ≠ some Path.slash &&
    if segments.length = 1 then isCapital first else !isCapital first

end Reference

namespace Repository

/-- The directory in which the file of a reference stands. -/
def referenceDirectory (repository : Repository) (name : Bytes) : Location :=
  let own := ["refs/bisect/", "refs/worktree/", "refs/rewritten/"]
  let isShared := (Ascii.bytes "refs/").isPrefixOf name &&
    !own.any fun front => (Ascii.bytes front).isPrefixOf name
  if isShared then repository.shared else repository.data

/-- The references that lines with a digest and a name write, where a line with the digest of
another object, which then counts, may follow each. Every line takes a byte, so that `fuel` need not
be more than the length of the text. -/
def readReferences : Nat → Bytes → Option (List (Bytes × Reference))
  | _, [] => some []
  | 0, _ => none
  | fuel + 1, text => do
    let line := text.takeWhile (· ≠ Ascii.byte '\n')
    let rest := text.drop (line.length + 1)
    let known := Reference.startsWithDigest line && line.length < text.length &&
      (line.drop Reference.digitCount).head? = some 0x20
    if !known then none
    let written := line.drop (Reference.digitCount + 1)
    let name := if written.getLast? = some (Ascii.byte '\r') then written.dropLast else written
    if rest.head? ≠ some (Ascii.byte '^') then
      return (name, .object (line.take Reference.digitCount)) :: (← readReferences fuel rest)
    else
      let peeled := rest.takeWhile (· ≠ Ascii.byte '\n')
      let after := rest.drop (peeled.length + 1)
      let ends := peeled.length < rest.length || peeled.length = Reference.digitCount + 1
      if !Reference.startsWithDigest (peeled.drop 1) || !ends then none
      let digest := (peeled.drop 1).take Reference.digitCount
      return (name, .object digest) :: (← readReferences fuel after)

/-- The text after the lines of comments in front of it, if all of them end. Every line takes a
byte, so that `fuel` need not be more than the length of the text. -/
def dropComments : Nat → Bytes → Option Bytes
  | 0, text => some text
  | fuel + 1, text =>
    if text.head? ≠ some (Ascii.byte '#') then some text
    else
      match text.dropWhile (· ≠ Ascii.byte '\n') with
      | [] => none
      | _ :: rest => dropComments fuel rest

/-- Whether the first line of a text says that the references after it are in order, so that only
the one that is looked for is read. -/
def saysSorted (text : Bytes) : Bool :=
  let line := text.takeWhile (· ≠ Ascii.byte '\n')
  (Ascii.bytes "# pack-refs with:").isPrefixOf line &&
    Reference.hasInside (Ascii.bytes " sorted ") line

/-- The text from the line with a name on; without such a line it is empty. Every line takes a byte,
so that `fuel` need not be more than the length of the text. -/
def fromName (name : Bytes) : Nat → Bytes → Bytes
  | 0, _ => []
  | fuel + 1, text =>
    let line := text.takeWhile (· ≠ Ascii.byte '\n')
    if line.drop (Reference.digitCount + 1) = name then text
    else fromName name fuel (text.drop (line.length + 1))

/-- The part of a text with one reference that starts at its first line. -/
def firstReference (text : Bytes) : Bytes :=
  let line := text.takeWhile (· ≠ Ascii.byte '\n')
  let rest := text.drop (line.length + 1)
  let peeled := rest.takeWhile (· ≠ Ascii.byte '\n')
  let more := if rest.head? = some (Ascii.byte '^') then peeled.length + 1 else 0
  text.take (line.length + 1 + more)

/-- The reference of a name in the file with many of them; nothing when there is none. -/
def lookUpPacked (files : FileSystem) (repository : Repository) (name : Bytes) :
    Except ReferenceFault (Option Reference) :=
  match RepositoryPlace.contentAt? files
      (RepositoryPlace.inside repository.shared ["packed-refs"]) with
  | none => .ok none
  | some content =>
    let text? := do
      let text ← dropComments content.length content
      return if saysSorted content then firstReference (fromName name text.length text) else text
    match text?.bind fun text => readReferences text.length text with
    | none => .error .packed
    | some references => .ok ((references.reverse.find? (·.1 = name)).map (·.2))

/-- What the reference of a name leads to; nothing when there is no such reference. -/
def lookUp (files : FileSystem) (repository : Repository) (name : Bytes) :
    Except ReferenceFault (Option Reference) :=
  let file := (FileSystem.pathOf (repository.referenceDirectory name)).join ⟨name⟩
  match files.read file with
  | .ok content => some <$> Reference.ofContent name content
  | .error _ => repository.lookUpPacked files name

/-- How many references are looked up one after the other. -/
def lookUpLimit : Nat := 6

/-- Whether bytes start like those of an object, which are compressed. -/
def startsCompressed : Bytes → Bool
  | a :: b :: _ => a.toNat &&& 0x8F = 0x08 && (a.toNat * 0x100 + b.toNat) % 31 = 0
  | _ => false

/-- Refuses the object with a digest when there is a file for it that holds no object. -/
def checkObject (files : FileSystem) (repository : Repository) (digest : Bytes) :
    Except ReferenceFault Unit :=
  let name := Ascii.lowered digest
  let file := RepositoryPlace.inside repository.shared ["objects"] ++ [name.take 2, name.drop 2]
  match RepositoryPlace.contentAt? files file with
  | none => .ok ()
  | some content => if startsCompressed content then .ok () else .error .object

/-- Follows references from a name on until there is none or an object; `limit` may be looked up. -/
def followReferences (files : FileSystem) (repository : Repository) :
    Nat → Bytes → Except ReferenceFault Unit
  | 0, _ => .error .endless
  | limit + 1, name => do
    match ← repository.lookUp files name with
    | some (.symbolic next) => followReferences files repository limit next
    | some (.object digest) => repository.checkObject files digest
    | none => return ()

/-- The name of the head. -/
def headName : Bytes := Ascii.bytes "HEAD"

/-- Refuses a repository whose head does not lead on. -/
def checkHead (files : FileSystem) (repository : Repository) : Except ReferenceFault Unit := do
  match ← repository.lookUp files headName with
  | some (.symbolic name) =>
    if !Reference.isName name then throw (.invalidName name)
    if Reference.nameLimit < name.length then throw (.longName name)
    repository.followReferences files lookUpLimit name
  | some (.object digest) => repository.checkObject files digest
  | none => return ()

end Repository

end LicenseHeader
