import LicenseHeader.Git.Extension
import LicenseHeader.Git.TrackedName
import LicenseHeader.Path.Basic

/-!
# The index of a repository

The index lists the files that a repository tracks. As a file it is a head with the number of
entries, the entries, each padded with zero bytes to a multiple of eight, extensions, and the digest
of all this, or zeros in its place. In the newest version an entry is not padded and shares the
start of its path with the entry before it. Only modes and paths of entries count here.
-/

namespace LicenseHeader

/-- A tracked path. -/
structure IndexEntry where
  /-- What is tracked: the type and the permission bits of a file, a link, or another
  repository. -/
  mode : Nat
  /-- The path below the root of the work tree. -/
  path : Bytes
  deriving DecidableEq, Repr

namespace IndexEntry

/-- The mode of another repository inside this one. -/
def linkedRepository : Nat := 0o160000

/-- Whether an entry stands for another repository. -/
def isRepository (entry : IndexEntry) : Bool := entry.mode = linkedRepository

end IndexEntry

/-- Why bytes are no index. -/
inductive IndexFault where
  /-- The bytes do not hold a head and a digest. -/
  | short
  /-- The bytes start with something else. -/
  | signature
  /-- The version is none that is known. -/
  | version
  /-- An entry cannot be read. -/
  | entry
  /-- There are fewer entries than the head says. -/
  | count
  /-- An extension goes on into the digest. -/
  | extensionLength
  /-- An extension that has to be understood is unknown. -/
  | extensionName (name : Bytes)
  /-- An extension cannot be read. -/
  | extension (fault : ExtensionFault)
  /-- After the extensions there are fewer bytes than a digest has. -/
  | footer
  /-- The digest is that of other bytes. -/
  | digest
  deriving DecidableEq, Repr

/-- The fault in words. -/
def IndexFault.message (fault : IndexFault) : String :=
  let invalid (words : String) : String := "invalid data in index - " ++ words
  let broken := "corrupted TREE extension in index"
  (match fault with
    | short => invalid "insufficient buffer space"
    | signature => invalid "incorrect header signature"
    | version => invalid "incorrect header version"
    | entry => invalid "invalid entry"
    | count => invalid "header entries changed while parsing"
    | extensionLength => invalid "extension is truncated"
    | extensionName name =>
      "unsupported mandatory extension: '" ++ String.ofList (Utf8.decodeLossy name) ++ "'"
    | extension .directories => broken
    | extension .directoriesEnd => broken ++ " (unexpected trailing data)"
    | extension .resolvedPath => invalid "reading reuc entries"
    | extension .resolvedMode => invalid "reading reuc entry stage"
    | extension .resolvedDigest => invalid "reading reuc entry oid"
    | extension .conflictName => invalid "reading conflict name entries"
    | footer => invalid "buffer size does not match index footer size"
    | digest => invalid "calculated checksum does not match expected") ++ "; class=Index (10)"

namespace Index

/-- The bytes that an index starts with. -/
def signature : Bytes := Ascii.bytes "DIRC"

/-- A number below `2 ^ 32` as four bytes, the most significant first. -/
def word (n : Nat) : Bytes :=
  [UInt8.ofNat (n / 0x1000000), UInt8.ofNat (n / 0x10000), UInt8.ofNat (n / 0x100), UInt8.ofNat n]

/-- The number that bytes write, the most significant first. -/
def number (bytes : Bytes) : Nat := bytes.foldl (fun n b => n * 0x100 + b.toNat) 0

/-- The number in some of the bytes. -/
def numberAt (bytes : Bytes) (position length : Nat) : Nat :=
  number ((bytes.drop position).take length)

/-- How many bytes the head has. -/
def headLength : Nat := 12

/-- How many bytes an entry has before its path. -/
def entryHead : Nat := 62

/-- How many bytes a path may have in the newest version. -/
def pathLimit : Nat := 4095

/-- How many zero bytes follow what stands in an entry up to the end of its path: as many as make
the entry a multiple of eight, and one at least. -/
def padding (length : Nat) : Nat := 8 - length % 8

/-- An entry as bytes. -/
def encodeEntry (entry : IndexEntry) : Bytes :=
  List.replicate 24 0 ++ word entry.mode ++ List.replicate 32 0 ++
    (word (min entry.path.length 0xFFF)).drop 2 ++ entry.path ++
    List.replicate (padding (entryHead + entry.path.length)) 0

/-- An index as bytes. -/
def encode (entries : List IndexEntry) : Bytes :=
  let content := signature ++ word 2 ++ word entries.length ++ entries.flatMap encodeEntry
  content ++ Digest.ofBytes content

/-- The number that bytes with a mark on all but the last write after digits that have been read,
and the bytes after them. A digit after the first counts for one more in its place, so that every
number is written in one way. -/
def readCount (digits : Option Nat) : Bytes → Option (Nat × Bytes)
  | [] => none
  | b :: rest =>
    let count := (digits.map fun n => (n + 1) * 0x80).getD 0 + b.toNat % 0x80
    if b < 0x80 then some (count, rest) else readCount (some count) rest

/-- The entry of the newest version whose head has been read: its path, which shares its start with
the path `before`, and the bytes after it. -/
def readSharedPath (before bytes : Bytes) : Option (Bytes × Bytes) := do
  let (dropped, bytes) ← readCount none bytes
  if before.length < dropped then none
  let suffix := bytes.takeWhile (· ≠ 0)
  let path := before.take (before.length - dropped) ++ suffix
  if pathLimit < path.length then none else some (path, bytes.drop (suffix.length + 1))

/-- The path that follows `head` bytes of an entry, and the bytes after the entry. The path has the
given length, or another one if this is the greatest that can be given. -/
def readPath (head length : Nat) (bytes : Bytes) : Bytes × Bytes :=
  let path := bytes.takeWhile (· ≠ 0)
  let length := if length = 0xFFF then path.length else length
  (path, bytes.drop (length + padding (head + length)))

/-- The entry at the start of bytes after an entry with the path `before`, and the bytes after
it. -/
def decodeEntry (guard : NameGuard) (version : Nat) (before bytes : Bytes) :
    Option (IndexEntry × Bytes) := do
  if bytes.length < entryHead + Digest.size then none
  let flags := numberAt bytes 60 2
  let head := if flags / 0x4000 % 2 = 1 then entryHead + 2 else entryHead
  let (path, rest) ←
    if version = 4 then readSharedPath before (bytes.drop head)
    else some (readPath head (flags % 0x1000) (bytes.drop head))
  if rest.length < Digest.size || (Path.pieces path).any guard.forbids then none
  else some (⟨numberAt bytes 24 4, path⟩, rest)

/-- The entries at the start of bytes, of which there should be the given number, and the bytes
after them. -/
def decodeEntries (guard : NameGuard) (version : Nat) (before : Bytes) :
    Nat → Bytes → Except IndexFault (List IndexEntry × Bytes)
  | 0, bytes => .ok ([], bytes)
  | count + 1, bytes =>
    if bytes.length ≤ Digest.size then .error .count
    else
      match decodeEntry guard version before bytes with
      | none => .error .entry
      | some (entry, rest) => do
        let (entries, rest) ← decodeEntries guard version entry.path count rest
        return (entry :: entries, rest)

/-- The bytes after the extensions at the start of bytes. An extension whose name starts with a
capital letter says nothing about entries, and no other is known. Every extension takes a byte, so
that `fuel` need not be more than the number of bytes. -/
def skipExtensions : Nat → Bytes → Except IndexFault Bytes
  | 0, bytes => .ok bytes
  | fuel + 1, bytes =>
    if bytes.length ≤ Digest.size then .ok bytes
    else
      let name := bytes.take 4
      let length := 8 + numberAt bytes 4 4
      if bytes.length < length + Digest.size then .error .extensionLength
      else if (name.head?.map Ascii.isUpper).getD false then
        match Extension.check name ((bytes.take length).drop 8) with
        | .error fault => .error (.extension fault)
        | .ok () => skipExtensions fuel (bytes.drop length)
      else .error (.extensionName (name.takeWhile (· ≠ 0)))

/-- The entries of an index, if the bytes are one and the guard lets all paths pass. -/
def decode (guard : NameGuard) (bytes : Bytes) : Except IndexFault (List IndexEntry) := do
  if bytes.length < headLength + Digest.size then throw .short
  if bytes.take 4 ≠ signature then throw .signature
  let version := numberAt bytes 4 4
  if version < 2 || 4 < version then throw .version
  let (entries, rest) ←
    decodeEntries guard version [] (numberAt bytes 8 4) (bytes.drop headLength)
  let footer ← skipExtensions rest.length rest
  if footer.length ≠ Digest.size then throw .footer
  let content := bytes.take (bytes.length - Digest.size)
  if footer ≠ List.replicate Digest.size 0 && footer ≠ Digest.ofBytes content then throw .digest
  return entries

/-- The entries with one more, in the order of paths; it replaces an entry of the same path. -/
def insert (entry : IndexEntry) (entries : List IndexEntry) : List IndexEntry :=
  (entry :: entries.filter (·.path ≠ entry.path)).mergeSort fun a b =>
    (compare (a.path.map (·.toNat)) (b.path.map (·.toNat))).isLE

end Index

end LicenseHeader
