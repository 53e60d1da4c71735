import LicenseHeader.Git.Digest
import LicenseHeader.Text.Number

/-!
# Extensions of an index

After its entries an index may have extensions: the digests of directories, the conflicts that were
resolved, and the names of paths in conflict. They say nothing about what is tracked, but an index
with a broken one is no index.
-/

namespace LicenseHeader

/-- Why the content of an extension cannot be read. -/
inductive ExtensionFault where
  /-- The digests of directories are broken. -/
  | directories
  /-- More bytes follow the digests of directories. -/
  | directoriesEnd
  /-- The path of a resolved conflict does not end. -/
  | resolvedPath
  /-- The modes of a resolved conflict are broken. -/
  | resolvedMode
  /-- The digests of a resolved conflict are broken. -/
  | resolvedDigest
  /-- The names of a path in conflict do not end. -/
  | conflictName
  deriving DecidableEq, Repr

namespace Extension

/-- The text before the first zero byte, and the bytes after it. -/
def readText? (bytes : Bytes) : Option (Bytes × Bytes) :=
  let text := bytes.takeWhile (· ≠ 0)
  if text.length < bytes.length then some (text, bytes.drop (text.length + 1)) else none

/-- The number at the start of bytes that a given byte follows, and the bytes after this byte. -/
def readNumber? (base : Nat) (mark : UInt8) (bytes : Bytes) : Option (Int × Bytes) := do
  let (number, rest) ← Ascii.integer? (some base) bytes
  if rest.head? = some mark then some (number, rest.drop 1) else none

/-- What stands for one directory: how many directories in it follow, and the bytes after it. It has
a name, the number of files below it, which is negative when there is no digest, and the number of
directories. -/
def readDirectory? (bytes : Bytes) : Option (Nat × Bytes) := do
  let (_, counts) ← readText? bytes
  let (files, counts) ← readNumber? 10 0x20 counts
  let (directories, rest) ← readNumber? 10 0x0A counts
  let digest := if 0 ≤ files then Digest.size else 0
  let isWord (n : Int) : Bool := -0x80000000 ≤ n && n < 0x80000000
  if !isWord files || !isWord directories || directories < 0 || rest.length < digest then none
  else some (directories.toNat, rest.drop digest)

/-- Reads the digests of directories, of which `pending` are still to come. Every directory takes a
byte, so that `fuel` need not be more than the number of bytes. -/
def checkDirectories : Nat → Nat → Bytes → Except ExtensionFault Unit
  | _, 0, bytes => if bytes.isEmpty then .ok () else .error .directoriesEnd
  | 0, _, _ => .error .directories
  | fuel + 1, pending + 1, bytes =>
    match readDirectory? bytes with
    | none => .error .directories
    | some (inside, rest) => checkDirectories fuel (pending + inside) rest

/-- The bytes after the modes of a resolved conflict, of which `count` are still to come, and after
the digests for those that are not zero; `digests` are needed for the modes before. -/
def readModes (digests : Nat) : Nat → Bytes → Except ExtensionFault Bytes
  | 0, bytes =>
    if bytes.length < digests * Digest.size then .error .resolvedDigest
    else .ok (bytes.drop (digests * Digest.size))
  | count + 1, bytes =>
    match readNumber? 8 0 bytes with
    | none => .error .resolvedMode
    | some (mode, rest) =>
      if mode < 0 || 0x100000000 ≤ mode || rest.isEmpty then .error .resolvedMode
      else readModes (if mode = 0 then digests else digests + 1) count rest

/-- Reads resolved conflicts. Every one takes a byte, so that `fuel` need not be more than the
number of bytes. -/
def checkResolved : Nat → Bytes → Except ExtensionFault Unit
  | _, [] => .ok ()
  | 0, _ => .ok ()
  | fuel + 1, bytes =>
    match readText? bytes with
    | none => .error .resolvedPath
    | some (_, rest) =>
      if rest.isEmpty then .error .resolvedPath
      else
        match readModes 0 3 rest with
        | .error fault => .error fault
        | .ok rest => checkResolved fuel rest

/-- Reads the names of paths in conflict, which are texts in threes. -/
def checkConflicts (bytes : Bytes) : Except ExtensionFault Unit :=
  if (bytes.getLast?.getD 0) = 0 && bytes.count 0 % 3 = 0 then .ok () else .error .conflictName

/-- Reads the content of the extension of a name that says nothing about entries. -/
def check (name content : Bytes) : Except ExtensionFault Unit :=
  if name = Ascii.bytes "TREE" then checkDirectories content.length 1 content
  else if name = Ascii.bytes "REUC" then checkResolved content.length content
  else if name = Ascii.bytes "NAME" then checkConflicts content
  else .ok ()

end Extension

end LicenseHeader
