import LicenseHeader.Git.Listing

/-!
# Setting up repositories

A new repository has a head, settings, objects and references, some files for its users, and no
index; staging a path records it in the index.
-/

namespace LicenseHeader

namespace FileSystem

/-- The files with an entry at a location and the directories above it. -/
def install (files : FileSystem) (location : Location) (entry : Entry) : FileSystem :=
  let above := (List.range (location.length - 1)).map fun count => location.take (count + 1)
  let grown := above.foldl (fun files directory =>
    if (files.tree.get? directory).isSome then files else files.put directory .directory) files
  if location = [] then grown else grown.put location entry

/-- The files without what is at a location and below it. -/
def uninstall (files : FileSystem) (location : Location) : FileSystem :=
  { files with tree := ⟨files.tree.entries.filter fun pair => !location.isPrefixOf pair.1⟩ }

end FileSystem

namespace Repository

/-- The settings of a new repository. -/
def newSettings (bare : Bool) : List String :=
  ["[core]", "\tbare = " ++ (if bare then "true" else "false"), "\trepositoryformatversion = 0",
    "\tfilemode = true"] ++ if bare then [] else ["\tlogallrefupdates = true"]

/-- The lines of the first hook of a new repository, which tells what hooks are. -/
def hookLines : List String :=
  ["#!/bin/sh", "#", "# Place appropriately named executable hook scripts into this directory",
    "# to intercept various actions that git takes.  See `git help hooks` for",
    "# more information."]

/-- The lines of the ignore rules in the data of a new repository. -/
def excludeLines : List String :=
  ["# File patterns to ignore; see `git help ignore` for more information.",
    "# Lines that start with '#' are comments."]

/-- What the data of a new repository hold, by its place in them. -/
def newData (bare : Bool) : List (List String × Entry) :=
  let text (mode : Nat) (lines : List String) : Entry :=
    .file (Ascii.bytes (String.join (lines.map (· ++ "\n")))) mode
  [(["HEAD"], text Entry.fileMode ["ref: refs/heads/master"]),
    (["config"], text Entry.fileMode (newSettings bare)),
    (["description"], text Entry.fileMode
      ["Unnamed repository; edit this file 'description' to name the repository."]),
    (["hooks", "README.sample"], text 0o755 hookLines),
    (["info", "exclude"], text Entry.fileMode excludeLines),
    (["objects", "info"], .directory), (["objects", "pack"], .directory),
    (["refs", "heads"], .directory), (["refs", "tags"], .directory)]

/-- The files with a new repository at a directory; what is there already stays. -/
def create (files : FileSystem) (directory : Location) (bare : Bool) : FileSystem :=
  let data := if bare then directory else directory ++ [RepositoryPlace.dataName]
  (newData bare).foldl (fun files part =>
    let location := RepositoryPlace.inside data part.1
    if (files.tree.get? location).isSome then files else files.install location part.2) files

/-- The mode that an index records for an entry. -/
def indexMode : Entry → Nat
  | .link _ => 0o120000
  | .directory => IndexEntry.linkedRepository
  | .file _ mode => if mode / 64 % 2 = 1 then 0o100755 else 0o100644

/-- The files with a path recorded in the index of a repository. -/
def stage (files : FileSystem) (repository : Repository) (entry : IndexEntry) : FileSystem :=
  let entries := (repository.indexEntries files).toOption.getD []
  files.install repository.indexLocation
    (.file (Index.encode (Index.insert entry entries)) Entry.fileMode)

end Repository

end LicenseHeader
