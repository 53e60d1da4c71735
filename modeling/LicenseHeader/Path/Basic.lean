import LicenseHeader.Text.Utf8

/-!
# Paths

A path is the bytes that were written. Its components are what the slashes separate, where empty
pieces and pieces of one dot say nothing and are left out, except for a dot in front. Two paths are
the same when their components are; `Path.le` orders paths by their components, so that a directory
stands before what is in it and names are compared as bytes.
-/

namespace LicenseHeader

/-- A path as it was written. -/
structure Path where
  /-- The bytes of the path. -/
  bytes : Bytes
  deriving DecidableEq, Repr

/-- A part of a path that means something. -/
inductive Component where
  /-- The root of the file tree, in front of an absolute path. -/
  | root
  /-- The working directory, written as a dot in front. -/
  | here
  /-- The directory above. -/
  | up
  /-- An entry of a directory. -/
  | entry (name : Bytes)
  deriving DecidableEq, Repr

namespace Component

/-- The bytes that write a component. -/
def bytes : Component → Bytes
  | root => [0x2F]
  | here => [0x2E]
  | up => [0x2E, 0x2E]
  | entry name => name

/-- The place of a component in the order of paths: root, dot, two dots, then names as bytes. -/
def key : Component → List Nat
  | root => [0]
  | here => [1]
  | up => [2]
  | entry name => 3 :: name.map (·.toNat)

end Component

namespace Path

/-- The byte that separates pieces. -/
def slash : UInt8 := 0x2F

/-- The path that a text writes. -/
def ofString (text : String) : Path := ⟨Utf8.encode text.toList⟩

/-- The path as text, with replacement characters for bytes that are none. -/
def display (path : Path) : String := String.ofList (Utf8.decodeLossy path.bytes)

/-- What the slashes in bytes separate; there is always one piece. -/
def pieces : Bytes → List Bytes
  | [] => [[]]
  | b :: rest =>
    if b = slash then [] :: pieces rest
    else
      match pieces rest with
      | [] => [[b]]
      | piece :: more => (b :: piece) :: more

/-- The bytes with the given pieces between slashes. -/
def joinPieces : List Bytes → Bytes
  | [] => []
  | [piece] => piece
  | piece :: more => piece ++ slash :: joinPieces more

/-- Whether a piece says nothing: it is empty or one dot. -/
def isIdle (piece : Bytes) : Bool := piece = [] || piece = Component.here.bytes

/-- The component that a piece writes, if it says anything. -/
def componentOf? (piece : Bytes) : Option Component :=
  if isIdle piece then none
  else if piece = Component.up.bytes then some .up
  else some (.entry piece)

/-- How a path starts, and the pieces after that start. -/
structure Parts where
  /-- The root, a dot in front, or nothing. -/
  start : Option Component
  /-- The pieces after the start. -/
  body : List Bytes
  deriving DecidableEq, Repr

/-- The start of a path and its pieces. -/
def parts (path : Path) : Parts :=
  match pieces path.bytes with
  | [] => ⟨none, []⟩
  | [piece] => if piece = Component.here.bytes then ⟨some .here, []⟩ else ⟨none, [piece]⟩
  | piece :: more =>
    if piece = [] then ⟨some .root, more⟩
    else if piece = Component.here.bytes then ⟨some .here, more⟩
    else ⟨none, piece :: more⟩

/-- The path with the given start and pieces. -/
def ofParts (parts : Parts) : Path :=
  match parts.start, parts.body with
  | none, body => ⟨joinPieces body⟩
  | some .root, body => ⟨slash :: joinPieces body⟩
  | some first, [] => ⟨first.bytes⟩
  | some first, body => ⟨first.bytes ++ slash :: joinPieces body⟩

/-- The components of a path. -/
def components (path : Path) : List Component :=
  path.parts.start.toList ++ path.parts.body.filterMap componentOf?

/-- Whether a path starts at the root. -/
def isAbsolute (path : Path) : Bool := path.parts.start = some .root

/-- Whether two paths have the same components. -/
def same (p q : Path) : Bool := p.components = q.components

/-- Whether a path stands before another or has the same components. -/
def le (p q : Path) : Bool :=
  (compare (p.components.map Component.key) (q.components.map Component.key)).isLE

/-- The last component of a path, if that is a name. -/
def fileName? (path : Path) : Option Bytes :=
  match path.components.getLast? with
  | some (.entry name) => some name
  | _ => none

/-- A path below another: an absolute one replaces it, and a slash comes between when the first does
not end with one. -/
def join (base path : Path) : Path :=
  if path.isAbsolute then path
  else
    match base.bytes.getLast? with
    | none => path
    | some last =>
      if last = slash then ⟨base.bytes ++ path.bytes⟩ else ⟨base.bytes ++ slash :: path.bytes⟩

/-- The path that the components write. -/
def ofComponents (components : List Component) : Path :=
  components.foldl (fun path component => path.join ⟨component.bytes⟩) ⟨[]⟩

/-- Pieces without those at the end that say nothing. -/
def dropIdleEnd (body : List Bytes) : List Bytes := (body.reverse.dropWhile isIdle).reverse

/-- The path without pieces at its end that say nothing. -/
def trimmed (path : Path) : Path := ofParts { path.parts with body := dropIdleEnd path.parts.body }

/-- The path without its last component, which has to be a name or two dots. -/
def parent (path : Path) : Path :=
  ofParts { path.parts with body := dropIdleEnd (dropIdleEnd path.parts.body).dropLast }

/-- The path beside `path` with another file name; a path without a file name gets one. -/
def withFileName (path : Path) (name : Bytes) : Path :=
  match path.fileName? with
  | some _ => path.parent.join ⟨name⟩
  | none => path.join ⟨name⟩

end Path

end LicenseHeader
