import LicenseHeader.Git.Repository
import LicenseHeader.Git.WorkTreeRule

/-!
# What a work tree ignores

The rules of a work tree stand in files of its directories, of which deeper ones come first, then in
a file in the data of the repository, then in a file that the settings name. A path about which no
rule says anything is ignored when its directory is.
-/

namespace LicenseHeader

/-- The rules of one file about the paths below a directory of a work tree. -/
structure WorkTreeRules where
  /-- The names that lead from the root of the work tree to the directory. -/
  directory : List Bytes
  /-- The rules. -/
  rules : List WorkTreeRule

namespace WorkTreeRules

/-- The rules in a file. Letters of either case are one if `folded`. -/
def ofContent (folded : Bool) (directory : List Bytes) (content : Bytes) : WorkTreeRules :=
  let path := directory.flatMap fun name => name ++ [Path.slash]
  ⟨directory, WorkTreeRule.ofContent folded path content⟩

/-- What the rules of files say about a path of the work tree, if they say anything: whether it is
ignored. -/
def verdict (all : List WorkTreeRules) (names : List Bytes) (isDirectory : Bool) : Option Bool :=
  all.findSome? fun found =>
    if found.directory.isPrefixOf names.dropLast then
      WorkTreeRule.verdict found.rules (names.drop found.directory.length) isDirectory
    else none

/-- What the rules of files say about the directories from one up to the root of the work tree; the
nearest about which they say anything decides. The names are given from the last one on. -/
def ignoresDirectory (all : List WorkTreeRules) : List Bytes → Bool
  | [] => (verdict all [] true).getD false
  | name :: above =>
    (verdict all (name :: above).reverse true).getD (ignoresDirectory all above)

/-- Whether a path of the work tree is ignored. -/
def ignores (all : List WorkTreeRules) (names : List Bytes) (isDirectory : Bool) : Bool :=
  (verdict all names isDirectory).getD (ignoresDirectory all names.reverse.tail)

end WorkTreeRules

namespace Repository

/-- The name of the file with the rules of a directory. -/
def rulesName : Bytes := Ascii.bytes ".gitignore"

/-- The path that a setting about the files of a work tree names, if it names one; one that is not
absolute starts from the work tree. -/
def namedPath (files : FileSystem) (workTree : Path) (setting : Setting) :
    Except ListingFault (Option Path) :=
  match setting.value with
  | none => .ok none
  | some value =>
    if !FileSystem.startsAtHome value then .ok (some (workTree.join ⟨value⟩))
    else
      match files.fromHome? value with
      | some path => .ok (some path)
      | none => .error .homeless

/-- The rules in the file that the settings name; when they name none, in that of the person. -/
def namedRules (files : FileSystem) (repository : Repository) (workTree : Path) :
    Except ListingFault (Option WorkTreeRules) := do
  let path? ← match Setting.find? repository.settings "core.excludesfile" with
    | none => pure files.personalRules?
    | some setting => namedPath files workTree setting
  let content? := path?.bind fun path => (files.read path).toOption
  return path?.bind fun path => content?.map fun content =>
    let below := if workTree.bytes.isPrefixOf path.bytes then
      Path.pieces (path.bytes.drop workTree.bytes.length) else []
    let directory := if below.getLast? = some rulesName then below.dropLast else []
    .ofContent repository.ignoresCase directory content

/-- Refuses settings that name a file of attributes in a home directory that is not there. -/
def checkAttributes (files : FileSystem) (repository : Repository) (workTree : Path) :
    Except ListingFault Unit :=
  match Setting.find? repository.settings "core.attributesfile" with
  | none => .ok ()
  | some setting => (namedPath files workTree setting).map fun _ => ()

/-- All rules of the work tree at a location, those that come first in front. -/
def rules (files : FileSystem) (repository : Repository) (workTree : Path) (root : Location) :
    Except ListingFault (List WorkTreeRules) := do
  repository.checkAttributes files workTree
  let named ← repository.namedRules files workTree
  let folded := repository.ignoresCase
  let own := (files.tree.directoriesWith [rulesName]).filterMap fun directory =>
    if !root.isPrefixOf directory then none
    else
      (RepositoryPlace.contentAt? files (directory ++ [rulesName])).map
        (.ofContent folded (directory.drop root.length))
  let data := RepositoryPlace.contentAt? files
    (RepositoryPlace.inside repository.shared ["info", "exclude"])
  return own ++ (data.map (.ofContent folded [])).toList ++ named.toList

end Repository

end LicenseHeader
