import LicenseHeader.Proofs.Batch.Selection
import LicenseHeader.Proofs.Git.Opening
import LicenseHeader.Proofs.Path.Joined
import LicenseHeader.Proofs.Path.Order
import LicenseHeader.Proofs.Path.Text
import LicenseHeader.Proofs.Result
import LicenseHeader.Source.Basic
import Mathlib

/-!
# What a repository lists

A repository lists the text names of what it tracks, other repositories apart, and of the new files
of its work tree: each once, behind the path of the work tree, in the order of paths
(`Repository.lists_tracked_and_new`). A file that is tracked is listed whatever the rules of the
work tree say, and a file that is not is new only when no rule ignores it.

The work tree of a repository may be another directory than the one with its data. The root of a
workspace is the work tree around a path, and what the workspace lists are the files of the
repository that is opened at this root, whose work tree may be yet another directory. The listed
paths lie below the root when both are one repository, and need not otherwise
(`Repository.list_chained`).
-/

namespace LicenseHeader

namespace Path

variable {paths : List Path} {path root : Path}

/-- Having the same components is an equivalence. -/
theorem equivalence_same : Equivalence fun p q : Path => p.same q = true where
  refl _ := decide_eq_true rfl
  symm like := decide_eq_true (of_decide_eq_true like).symm
  trans first second :=
    decide_eq_true ((of_decide_eq_true first).trans (of_decide_eq_true second))

/-- Of sorted paths without repeats each stands before those that follow, and none of these before
it. -/
theorem increasing_dropRepeats (paths : List Path) :
    (dropRepeats same (paths.mergeSort le)).Pairwise fun p q => q.le p = false := by
  have sorted := List.pairwise_mergeSort le_trans le_total paths
  -- What stands between paths of the same components has these components as well.
  have apart := (pairwise_dropRepeats_iff equivalence_same (paths.mergeSort le)).mpr
    fun x y z inside like => by
      obtain ⟨before, pair⟩ := List.pairwise_cons.mp (sorted.sublist inside)
      have behind := (List.pairwise_cons.mp pair).1 z (List.mem_singleton_self z)
      have back := le_of_components_eq (of_decide_eq_true like).symm
      exact decide_eq_true (le_antisymm (before y List.mem_cons_self) (le_trans y z x behind back))
  refine ((sorted.sublist (dropRepeats_sublist _ _)).and apart).imp fun both => ?_
  refine Bool.eq_false_iff.mpr fun back => ?_
  exact Bool.eq_false_iff.mp both.2 (decide_eq_true (le_antisymm both.1 back))

/-- Sorted paths without repeats are some of the paths. -/
theorem mem_of_mem_dropRepeats (member : path ∈ dropRepeats same (paths.mergeSort le)) :
    path ∈ paths :=
  List.mem_mergeSort.mp ((dropRepeats_sublist _ _).mem member)

/-- A path is among the sorted ones without repeats in one of its spellings. -/
theorem exists_mem_sorted (member : path ∈ paths) :
    ∃ kept ∈ dropRepeats same (paths.mergeSort le), kept.components = path.components := by
  obtain ⟨kept, there, like⟩ :=
    exists_mem_dropRepeats equivalence_same (List.mem_mergeSort.mpr member)
  exact ⟨kept, there, (of_decide_eq_true like).symm⟩

/-- What follows the components of a directory is left of a path. -/
theorem components_belowOrSelf_of_append {rest : List Component}
    (whole : path.components = root.components ++ rest) :
    (path.belowOrSelf root).components = rest := by
  rcases belowOrSelf_cases root path with left | ⟨elsewhere, -⟩
  · exact List.append_cancel_left (left.symm.trans whole)
  · exact absurd ⟨rest, whole.symm⟩ elsewhere

/-- A name behind an absolute directory adds its steps, unless it replaces the directory. -/
theorem components_join_eq {name : Bytes} (absolute : root.isAbsolute = true) :
    (root.join ⟨name⟩).components =
      if (⟨name⟩ : Path).isAbsolute then (⟨name⟩ : Path).components
      else root.components ++ steps name := by
  split
  next also => exact leads_self root also
  next relative => exact components_join_name absolute (Bool.eq_false_iff.mpr relative)

end Path

namespace Repository

namespace WorkTree

variable {work : WorkTree} {names : List Bytes} {name : Bytes}

/-- Whether there is a new file at names below the root of a work tree. -/
structure IsNew (work : WorkTree) (names : List Bytes) : Prop where
  /-- There is something, and it is no directory. -/
  file : ∃ entry, (work.root ++ names, entry) ∈ work.tree.entries ∧ entry.isDirectory = false
  /-- It is not the root. -/
  below : names ≠ []
  /-- It is no part of the data of a repository. -/
  unreserved : ∀ name ∈ names, isReserved name = false
  /-- Nothing that is tracked has its path. -/
  untracked : work.tracks names false = false
  /-- No other repository is tracked on the way. -/
  apart : ∀ directory ∈ names :: directoriesTo names, work.tracks directory true = false
  /-- Every directory on the way is looked into. -/
  reached : ∀ directory ∈ directoriesTo names, work.isOpen directory = true
  /-- No rule ignores it. -/
  kept : WorkTreeRules.ignores work.rules names false = false

/-- What a new file is listed as: its path, or that of the first directory on the way that is
another repository. -/
def listedAs (work : WorkTree) (names : List Bytes) : Bytes :=
  match (directoriesTo names).find? work.isForeign with
  | some directory => Path.joinPieces directory ++ [Path.slash]
  | none => Path.joinPieces names

/-- Whether a name below a work tree is listed: it is text, and it is the path of something that is
tracked and is no repository, or what a new file is listed as. -/
def Lists (work : WorkTree) (name : Bytes) : Prop :=
  Path.IsText name ∧
    ((∃ entry ∈ work.tracked, entry.isRepository = false ∧ entry.path = name) ∨
      ∃ names, work.IsNew names ∧ work.listedAs names = name)

/-- The names that are listed, as often as they are found. -/
def listedNames (work : WorkTree) : List Bytes :=
  ((work.tracked.filter (!·.isRepository)).map (·.path) ++ work.untracked).filter fun name =>
    (Utf8.decode name).isOk

/-- A file that a listing names is not refused for one of five reasons. -/
theorem untracked?_eq_some_iff :
    work.untracked? names = some name ↔
      (∀ name ∈ names, isReserved name = false) ∧
      (∀ directory ∈ names :: directoriesTo names, work.tracks directory true = false) ∧
      work.tracks names false = false ∧
      (∀ directory ∈ directoriesTo names, work.isOpen directory = true) ∧
      WorkTreeRules.ignores work.rules names false = false ∧ work.listedAs names = name := by
  unfold untracked? listedAs
  dsimp only
  cases (directoriesTo names).find? work.isForeign <;>
    simp only [Option.ite_none_left_eq_some, Bool.not_eq_true, Bool.or_eq_false_iff,
      List.any_eq_false, Bool.not_eq_false', List.all_eq_true, Option.some.injEq, and_assoc]

/-- What stands for the untracked files are the names of the new ones. -/
theorem mem_untracked_iff :
    name ∈ work.untracked ↔ ∃ names, work.IsNew names ∧ work.listedAs names = name := by
  unfold untracked
  rw [List.mem_filterMap]
  constructor
  · rintro ⟨⟨location, entry⟩, member, found⟩
    dsimp only at found
    split at found
    · contradiction
    next outside =>
      simp only [Bool.or_eq_true, not_or, Bool.not_eq_true, decide_eq_true_eq,
        Bool.not_eq_false'] at outside
      obtain ⟨⟨file, within⟩, other⟩ := outside
      obtain ⟨names, rfl⟩ := List.isPrefixOf_iff_prefix.mp within
      rw [List.drop_left] at found
      obtain ⟨unreserved, apart, untracked, reached, kept, named⟩ := untracked?_eq_some_iff.mp found
      refine ⟨names, ⟨⟨entry, member, file⟩, ?_, unreserved, untracked, apart, reached, kept⟩,
        named⟩
      rintro rfl
      exact other (List.append_nil _)
  · rintro ⟨names, new, named⟩
    obtain ⟨entry, member, file⟩ := new.file
    refine ⟨(work.root ++ names, entry), member, ?_⟩
    have within : work.root.isPrefixOf (work.root ++ names) = true :=
      List.isPrefixOf_iff_prefix.mpr (List.prefix_append _ _)
    have other : ¬ work.root ++ names = work.root := mt List.append_right_eq_self.mp new.below
    dsimp only
    rw [if_neg (by simp [file, within, other]), List.drop_left]
    exact untracked?_eq_some_iff.mpr
      ⟨new.unreserved, new.apart, new.untracked, new.reached, new.kept, named⟩

/-- The names that are found are those that are listed. -/
theorem mem_listedNames_iff : name ∈ work.listedNames ↔ work.Lists name := by
  rw [listedNames, List.mem_filter, List.mem_append, mem_untracked_iff, Lists,
    Path.isText_iff_isOk, and_comm]
  simp only [List.mem_map, List.mem_filter, Bool.not_eq_true', and_assoc]

end WorkTree

section Listing

variable {files : FileSystem} {root workTree : Path} {repository : Repository} {work : WorkTree}

/-- What is known about a work tree are the entries of the index and the rules. -/
theorem of_readWorkTree (known : repository.readWorkTree files workTree = .ok work) :
    repository.indexEntries files = .ok work.tracked ∧
      repository.rules files workTree work.root = .ok work.rules ∧
      workTreeLocation files workTree = .ok work.root ∧ work.tree = files.tree := by
  obtain ⟨tracked, indexed, behind⟩ := ok_of_bind known
  obtain ⟨-, -, behind⟩ := ok_of_bind behind
  obtain ⟨location, located, behind⟩ := ok_of_bind behind
  obtain ⟨rules, read, whole⟩ := ok_of_bind behind
  obtain rfl := Except.ok.inj whole
  exact ⟨indexed, read, located, rfl⟩

/-- The work tree of a repository is at its path. -/
theorem workTreePath_of_spread (spread : repository.workTree = some workTree) :
    repository.workTreePath = .ok workTree := by
  unfold workTreePath
  rw [spread]

/-- A repository lists, sorted and without repeats, the paths of the names that are found. -/
theorem list_eq (opened : openAt files root = .ok repository)
    (spread : repository.workTree = some workTree)
    (known : repository.readWorkTree files workTree = .ok work) :
    list files root = .ok (dropRepeats Path.same
      ((work.listedNames.map fun name => workTree.join ⟨name⟩).mergeSort Path.le)) := by
  unfold list
  rw [opened]
  simp only [bind, Except.bind, workTreePath_of_spread spread, known, Except.mapError, pure,
    Except.pure]
  rfl

/-- Whether paths are the listing of a repository that was found at a root, with what is known about
its work tree at a path. -/
structure IsListing (root workTree : Path) (work : WorkTree) (listing : List Path) : Prop where
  /-- Each path stands before those that follow, so that none is there twice. -/
  increasing : listing.Pairwise fun p q => q.le p = false
  /-- A path in the listing is that of a listed name. -/
  sound : ∀ path ∈ listing, ∃ name, work.Lists name ∧ path = workTree.join ⟨name⟩
  /-- The path of a listed name is in the listing, in one of its spellings. -/
  complete : ∀ name, work.Lists name →
    ∃ path ∈ listing, path.components = (workTree.join ⟨name⟩).components
  /-- The paths lie below the root exactly when it starts each of them: a listed name that is an
  absolute path, and the work tree with any other one. -/
  below_iff : workTree.isAbsolute = true →
    ((∀ path ∈ listing, (path.below? root).isSome = true) ↔
      ∀ name, work.Lists name → root.components <+:
        if (⟨name⟩ : Path).isAbsolute then (⟨name⟩ : Path).components
        else workTree.components ++ Path.steps name)
  /-- Below the work tree itself only the name is left of the path of a listed name. -/
  left : workTree.isAbsolute = true → root.components = workTree.components →
    ∀ name, work.Lists name → (⟨name⟩ : Path).isAbsolute = false →
      ∀ path ∈ listing, path.components = (workTree.join ⟨name⟩).components →
        (path.belowOrSelf root).isAbsolute = false ∧
          (path.belowOrSelf root).components = Path.steps name

/-- The paths of the names that are found, sorted and without repeats, are the listing. -/
theorem isListing_of_listedNames (root workTree : Path) (work : WorkTree) :
    IsListing root workTree work (dropRepeats Path.same
      ((work.listedNames.map fun name => workTree.join ⟨name⟩).mergeSort Path.le)) := by
  let listing := dropRepeats Path.same
    ((work.listedNames.map fun name => workTree.join ⟨name⟩).mergeSort Path.le)
  have sound : ∀ path ∈ listing, ∃ name, work.Lists name ∧ path = workTree.join ⟨name⟩ := by
    intro path member
    obtain ⟨name, present, rfl⟩ := List.mem_map.mp (Path.mem_of_mem_dropRepeats member)
    exact ⟨name, WorkTree.mem_listedNames_iff.mp present, rfl⟩
  have complete : ∀ name, work.Lists name →
      ∃ path ∈ listing, path.components = (workTree.join ⟨name⟩).components := fun name present =>
    Path.exists_mem_sorted
      (List.mem_map.mpr ⟨name, WorkTree.mem_listedNames_iff.mpr present, rfl⟩)
  refine ⟨Path.increasing_dropRepeats _, sound, complete, fun absolute => ⟨?_, ?_⟩, ?_⟩
  · intro below name present
    obtain ⟨path, member, same⟩ := complete name present
    have lies := Path.isSome_below?_iff.mp (below path member)
    rwa [same, Path.components_join_eq absolute] at lies
  · intro starts path member
    obtain ⟨name, present, rfl⟩ := sound path member
    rw [Path.isSome_below?_iff, Path.components_join_eq absolute]
    exact starts name present
  · intro absolute same name _ relative path _ likewise
    have whole : path.components = root.components ++ Path.steps name := by
      rw [likewise, same, Path.components_join_name absolute relative]
    have left := Path.components_belowOrSelf_of_append whole
    refine ⟨?_, left⟩
    rw [← Bool.not_eq_true, Path.isAbsolute_iff_root, left]
    exact Path.root_not_mem _

/-- The root of a workspace has the components of the work tree of the repository around it. -/
theorem components_root {start : Path}
    (resolved : Workspace.resolve files start true = .ok ⟨root, true⟩)
    (discovered : discover files start = .ok repository)
    (spread : repository.workTree = some workTree) (absolute : workTree.isAbsolute = true) :
    root.components = workTree.components := by
  unfold Workspace.resolve Workspace.repositoryRoot at resolved
  rw [if_pos rfl, discovered] at resolved
  simp only [Except.bind, workTreePath_of_spread spread, Except.mapError, Except.map] at resolved
  obtain rfl := congrArg Workspace.root (Except.ok.inj resolved)
  exact Path.components_ofComponents_of_isAbsolute absolute

/-- A repository with a work tree of which the index and the rules can be read has a listing: the
text names of what is tracked, other repositories apart, and of the new files. At the root of a
workspace for which the same repository was discovered, this root is the work tree, so that only the
names are left of the listed paths. -/
theorem lists_tracked_and_new (opened : openAt files root = .ok repository)
    (spread : repository.workTree = some workTree)
    (known : repository.readWorkTree files workTree = .ok work) :
    repository.indexEntries files = .ok work.tracked ∧
      repository.rules files workTree work.root = .ok work.rules ∧
      workTreeLocation files workTree = .ok work.root ∧ work.tree = files.tree ∧
      ∃ listing, list files root = .ok listing ∧ IsListing root workTree work listing ∧
        ∀ start, Workspace.resolve files start true = .ok ⟨root, true⟩ →
          discover files start = .ok repository → workTree.isAbsolute = true →
            root.components = workTree.components := by
  obtain ⟨indexed, read, located, tree⟩ := of_readWorkTree known
  refine ⟨indexed, read, located, tree, _, list_eq opened spread known,
    isListing_of_listedNames root workTree work, ?_⟩
  intro start resolved discovered absolute
  exact components_root resolved discovered spread absolute

end Listing

section Examples

/-- The location of the data of a repository in a directory. -/
def dataPlace (directory : String) : Location := [Ascii.bytes directory, RepositoryPlace.dataName]

/-- The head of a new repository. -/
def newHead : Bytes := Ascii.bytes "ref: refs/heads/main\n"

/-- A directory with the data of a repository, which has more files. -/
def dataIn (directory : String) (more : List (String × Bytes)) : List (Location × Entry) :=
  [([Ascii.bytes directory], .directory), (dataPlace directory, .directory),
    (dataPlace directory ++ [Ascii.bytes "objects"], .directory),
    (dataPlace directory ++ [Ascii.bytes "refs"], .directory)] ++
  (("HEAD", newHead) :: more).map fun file =>
    (dataPlace directory ++ [Ascii.bytes file.1], .file file.2 Entry.fileMode)

/-- Where a repository is found in a directory. -/
def placeIn (directory : String) : RepositoryPlace :=
  ⟨dataPlace directory, dataPlace directory, [Ascii.bytes directory], false⟩

/-- The head of a new repository leads to a reference that is not there yet. -/
theorem checkHead_newHead {files : FileSystem} {repository : Repository} {file : Path}
    (head : (FileSystem.pathOf (repository.referenceDirectory headName)).join ⟨headName⟩ = file)
    (written : files.read file = .ok newHead)
    (unborn : repository.lookUp files (Ascii.bytes "refs/heads/main") = .ok none) :
    repository.checkHead files = .ok () := by
  have leads : Reference.ofContent headName newHead =
      .ok (.symbolic (Ascii.bytes "refs/heads/main")) := by
    cbv
  exact checkHead_of_unborn head written leads (by decide +kernel) (by decide +kernel) unborn

/-- Two entries of one path, which is in conflict. -/
def conflictedEntries : List IndexEntry := List.replicate 2 ⟨0o100644, Ascii.bytes "y.c"⟩

/-- An index with these entries. -/
def conflictedIndex : Bytes :=
  Index.signature ++ Index.word 2 ++ Index.word 2 ++
    conflictedEntries.flatMap Index.encodeEntry ++ List.replicate Digest.size 0

/-- Files with a repository that has an index. -/
def trackedFiles (index : Bytes) : FileSystem where
  tree := ⟨dataIn "w" [("index", index)] ++
    [([Ascii.bytes "w", Ascii.bytes "x.c"], .file [] Entry.fileMode)]⟩
  workingDirectory := []

/-- Files with a repository that tracks a path in conflict, where no file is, and has a new file. -/
def conflictedFiles : FileSystem := trackedFiles conflictedIndex

/-- The repository among these files. -/
def conflicted : Repository := ⟨dataPlace "w", dataPlace "w", some (.ofString "/w/"), []⟩

/-- What is known about its work tree. -/
def conflictedTree : WorkTree :=
  ⟨conflictedFiles.tree, [Ascii.bytes "w"], [], conflictedEntries, false⟩

/-- The repository is found. -/
theorem openAt_conflicted : openAt conflictedFiles (.ofString "/w") = .ok conflicted := by
  have found : RepositoryPlace.find conflictedFiles false (.ofString "/w") =
      .ok (placeIn "w") := by
    cbv
  have there : atPlace conflictedFiles (placeIn "w") = .ok conflicted := by cbv
  unfold openAt
  simp only [found, there, bind, Except.bind]
  rfl

/-- Its index is read. -/
theorem indexEntries_conflicted :
    conflicted.indexEntries conflictedFiles = .ok conflictedEntries := by
  have entry (index : Bytes) : RepositoryPlace.entryAt (trackedFiles index)
      conflicted.indexLocation = some (.file index Entry.fileMode) := by
    cbv
  have decoded : Index.decode (.ofSettings []) conflictedIndex = .ok conflictedEntries :=
    eq_ok_of_toOption (by decide +kernel)
  have long : ¬ conflictedIndex.length < Digest.size := by decide +kernel
  have plain : conflicted.settings = [] := rfl
  unfold indexEntries conflictedFiles
  rw [entry, plain]
  dsimp only
  rw [if_neg long]
  rw [decoded]
  rfl

/-- Its work tree is read. -/
theorem readWorkTree_conflicted :
    conflicted.readWorkTree conflictedFiles (.ofString "/w/") = .ok conflictedTree := by
  have head : conflicted.checkHead conflictedFiles = .ok () :=
    checkHead_newHead (show _ = Path.ofString "/w/.git/HEAD" by decide +kernel) (by cbv) (by cbv)
  have located : workTreeLocation conflictedFiles (.ofString "/w/") = .ok [Ascii.bytes "w"] := by
    cbv
  have rules : conflicted.rules conflictedFiles (.ofString "/w/") [Ascii.bytes "w"] = .ok [] := by
    cbv
  unfold readWorkTree
  simp only [indexEntries_conflicted, head, located, rules, bind, Except.bind, Except.mapError]
  rfl

/-- A path in conflict is listed once, also when nothing is there. -/
theorem lists_tracked_and_new_conflicted :
    openAt conflictedFiles (.ofString "/w") = .ok conflicted ∧
      conflicted.workTree = some (.ofString "/w/") ∧
      conflicted.readWorkTree conflictedFiles (.ofString "/w/") = .ok conflictedTree ∧
      ∃ listing, list conflictedFiles (.ofString "/w") = .ok listing ∧
        (listing.Pairwise fun p q => q.le p = false) ∧
        ∃ path ∈ listing, (path.belowOrSelf (.ofString "/w")).components =
          [.entry (Ascii.bytes "y.c")] := by
  have spread : conflicted.workTree = some (.ofString "/w/") := rfl
  obtain ⟨-, -, -, -, listing, made, isListing, -⟩ :=
    lists_tracked_and_new openAt_conflicted spread readWorkTree_conflicted
  have present : conflictedTree.Lists (Ascii.bytes "y.c") :=
    ⟨⟨"y.c".toList, by decide +kernel⟩, .inl ⟨_, List.mem_cons_self, by decide, rfl⟩⟩
  obtain ⟨path, member, same⟩ := isListing.complete _ present
  have left := isListing.left (by decide +kernel) (by decide +kernel) _ present
    (by decide +kernel) path member same
  refine ⟨openAt_conflicted, spread, readWorkTree_conflicted, listing, made,
    isListing.increasing, path, member, left.2.trans ?_⟩
  decide +kernel

/-- A file of settings that name a work tree. -/
def workTreeFile (workTree : String) : Bytes :=
  Ascii.bytes "[core]\n\tworktree = " ++ Ascii.bytes workTree ++ Ascii.bytes "\n"

/-- The setting that names a work tree. -/
def workTreeSetting (workTree : String) : Setting :=
  ⟨Ascii.bytes "core.worktree", some (Ascii.bytes workTree)⟩

/-- Files with two repositories: the first one has the directory of the second as its work tree, and
the second one a third directory. -/
def chainedFiles : FileSystem where
  tree := ⟨dataIn "a" [("config", workTreeFile "../../b")] ++
    dataIn "b" [("config", workTreeFile "../../c")] ++
    [([Ascii.bytes "b", Ascii.bytes "y.c"], .file [] Entry.fileMode),
      ([Ascii.bytes "c"], .directory),
      ([Ascii.bytes "c", Ascii.bytes "x.c"], .file [] Entry.fileMode)]⟩
  workingDirectory := []

/-- The first repository. -/
def chainedFirst : Repository :=
  ⟨dataPlace "a", dataPlace "a", some (.ofString "/b/"), [workTreeSetting "../../b"]⟩

/-- The second repository. -/
def chainedSecond : Repository :=
  ⟨dataPlace "b", dataPlace "b", some (.ofString "/c/"), [workTreeSetting "../../c"]⟩

/-- The settings of the first repository. -/
theorem settingsAt_chainedFirst :
    settingsAt chainedFiles (placeIn "a") = .ok [workTreeSetting "../../b"] := by
  have written : chainedFiles.read (.ofString "/a/.git/config") =
      .ok (workTreeFile "../../b") := by
    cbv
  exact settingsAt_of_plain rfl (by decide +kernel) (by cbv) written (by decide +kernel)
    (by decide +kernel) (by decide +kernel)

/-- The settings of the second repository. -/
theorem settingsAt_chainedSecond :
    settingsAt chainedFiles (placeIn "b") = .ok [workTreeSetting "../../c"] := by
  have written : chainedFiles.read (.ofString "/b/.git/config") =
      .ok (workTreeFile "../../c") := by
    cbv
  exact settingsAt_of_plain rfl (by decide +kernel) (by cbv) written (by decide +kernel)
    (by decide +kernel) (by decide +kernel)

/-- The first repository is discovered in its own directory. -/
theorem discover_chained : discover chainedFiles (.ofString "/a") = .ok chainedFirst := by
  have found : RepositoryPlace.find chainedFiles true (.ofString "/a") = .ok (placeIn "a") := by
    cbv
  have again : RepositoryPlace.find chainedFiles false
      (RepositoryPlace.directoryPath (placeIn "a").data) = .ok (placeIn "a") := by
    cbv
  have there : atPlace chainedFiles (placeIn "a") = .ok chainedFirst := by
    unfold atPlace
    simp only [settingsAt_chainedFirst, bind, Except.bind]
    cbv
  unfold discover
  simp only [found, again, there, bind, Except.bind]
  rfl

/-- The second repository is opened in its own directory. -/
theorem openAt_chained : openAt chainedFiles (.ofString "/b") = .ok chainedSecond := by
  have found : RepositoryPlace.find chainedFiles false (.ofString "/b") = .ok (placeIn "b") := by
    cbv
  have there : atPlace chainedFiles (placeIn "b") = .ok chainedSecond := by
    unfold atPlace
    simp only [settingsAt_chainedSecond, bind, Except.bind]
    cbv
  unfold openAt
  simp only [found, there, bind, Except.bind]
  rfl

/-- The work tree of the second repository is read. -/
theorem readWorkTree_chained : chainedSecond.readWorkTree chainedFiles (.ofString "/c/") =
    .ok ⟨chainedFiles.tree, [Ascii.bytes "c"], [], [], false⟩ := by
  have indexed : chainedSecond.indexEntries chainedFiles = .ok [] := by cbv
  have head : chainedSecond.checkHead chainedFiles = .ok () :=
    checkHead_newHead (show _ = Path.ofString "/b/.git/HEAD" by decide +kernel) (by cbv) (by cbv)
  have located : workTreeLocation chainedFiles (.ofString "/c/") = .ok [Ascii.bytes "c"] := by cbv
  have rules : chainedSecond.rules chainedFiles (.ofString "/c/") [Ascii.bytes "c"] = .ok [] := by
    cbv
  unfold readWorkTree
  simp only [indexed, head, located, rules, bind, Except.bind, Except.mapError]
  rfl

/-- A workspace whose root is the directory of another repository lists the files of that one, which
lie elsewhere. -/
theorem list_chained :
    Workspace.resolve chainedFiles (.ofString "/a") true = .ok ⟨.ofString "/b", true⟩ ∧
      list chainedFiles (.ofString "/b") = .ok [.ofString "/c/x.c"] ∧
      (Path.ofString "/c/x.c").below? (.ofString "/b") = none := by
  refine ⟨?_, ?_, by decide +kernel⟩
  · unfold Workspace.resolve Workspace.repositoryRoot
    rw [if_pos rfl, discover_chained]
    cbv
  · have names : (⟨chainedFiles.tree, [Ascii.bytes "c"], [], [], false⟩ : WorkTree).listedNames =
        [Ascii.bytes "x.c"] := by
      decide +kernel
    have path : (Path.ofString "/c/").join ⟨Ascii.bytes "x.c"⟩ = .ofString "/c/x.c" := by
      decide +kernel
    rw [list_eq openAt_chained rfl readWorkTree_chained, names, List.map_singleton, path,
      List.mergeSort_singleton]
    rfl

end Examples

end Repository

end LicenseHeader
