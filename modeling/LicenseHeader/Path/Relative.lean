import LicenseHeader.Path.Basic

/-!
# Paths relative to a directory

There are two ways to say where a path lies below a directory. `Path.below?` compares components and
returns the rest of the path as it was written; `Path.relativeTo?` builds a new path that also
climbs with two dots. `Path.shown` is the form in which paths are listed.
-/

namespace LicenseHeader.Path

/-- The pieces after the first `count` that say something. -/
def dropSaying : Nat → List Bytes → List Bytes
  | 0, body => body
  | _ + 1, [] => []
  | count + 1, piece :: more =>
    if isIdle piece then dropSaying (count + 1) more else dropSaying count more

/-- The text of a path after its first `count` components, without idle pieces at either end. -/
def after (path : Path) (count : Nat) : Path :=
  if count = 0 then path.trimmed
  else
    let inBody := count - path.parts.start.toList.length
    ⟨joinPieces (dropIdleEnd ((dropSaying inBody path.parts.body).dropWhile isIdle))⟩

/-- The rest of a path below a directory, if the components of the directory start it. -/
def below? (path directory : Path) : Option Path :=
  if directory.components.isPrefixOf path.components then
    some (path.after directory.components.length)
  else none

/-- The rest of a path below a directory, or the path as it is when it lies elsewhere. -/
def belowOrSelf (path directory : Path) : Path := (path.below? directory).getD path

/-- The components that lead from the directory with components `base` to the path with components
`path`, after what both have in common; none where the way up is unknown. A dot in front of the
directory costs no step up. -/
def climb : List Component → List Component → Option (List Component)
  | path, [] => some path
  | [], base => some (base.map fun _ => .up)
  | first :: path, .here :: base => (climb path base).map (first :: ·)
  | _ :: _, .up :: _ => none
  | path, base => some (base.map (fun _ => .up) ++ path)

/-- The two lists without the longest start that they share. -/
def dropCommon : List Component → List Component → List Component × List Component
  | p :: path, b :: base => if p = b then dropCommon path base else (p :: path, b :: base)
  | path, base => (path, base)

/-- The path that leads from a directory to `path`. -/
def relativeTo? (path directory : Path) : Option Path :=
  if path.isAbsolute != directory.isAbsolute then
    if path.isAbsolute then some path else none
  else
    let rest := dropCommon path.components directory.components
    (climb rest.1 rest.2).map ofComponents

/-- The path as it is listed: relative to the root if it lies below it. -/
def shown (path : Path) (root : Option Path) : String :=
  match root.bind path.relativeTo? with
  | some relative =>
    if relative.components.head? = some .up then path.display else relative.display
  | none => path.display

end LicenseHeader.Path
