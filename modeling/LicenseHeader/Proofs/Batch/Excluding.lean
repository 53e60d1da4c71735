import LicenseHeader.Proofs.Batch.Dotted
import LicenseHeader.Proofs.Batch.Ordered
import LicenseHeader.Proofs.Batch.Rewrites

/-!
# Excluding more

The targets with more exclude patterns are spellings of targets with some of them. So no other files
are rewritten, and they are rewritten in the same way, where the spellings of a path fare alike
(`Selection.excluding_more`). A spelling that leaves no room for a staging file does not, and hides
others until it is excluded (`Selection.excluding_more_crowded`).
-/

namespace LicenseHeader

open Replacement

namespace Exclusion

variable {root : Path} {fewer more : List String} {lax strict : Exclusion}

/-- What is not excluded by more patterns is not excluded by some of them. -/
theorem verdict_eq_none_of_more (first : ofSources root fewer = .ok lax)
    (second : ofSources root more = .ok strict) (among : ∀ source ∈ fewer, source ∈ more)
    {path : Path} (passed : strict.verdict path = none) : lax.verdict path = none := by
  obtain ⟨few, parsed, rfl⟩ := exists_patterns first
  obtain ⟨all, parsed', rfl⟩ := exists_patterns second
  unfold verdict at passed ⊢
  rw [Option.map_eq_none_iff, List.find?_eq_none] at passed ⊢
  intro pattern member
  obtain ⟨source, given, written⟩ := (mem_parsePatterns parsed pattern).mp member
  exact passed pattern ((mem_parsePatterns parsed' pattern).mpr ⟨source, among source given, written⟩)

end Exclusion

namespace Selection

/-- Whether replacing the file under listed spellings of one path fails for all of them or for none,
as far as this does not depend on the files. -/
def FailsAlike (device : Device) (paths : List Path) : Prop :=
  ∀ p ∈ paths, ∀ q ∈ paths, p.components = q.components → failsAt device p = failsAt device q

variable {batch : Batch} {device : Device} {files : FileSystem} {paths : List Path}
  {root : Path} {fewer more : List String} {exclusion lax strict : Exclusion}

section Clear

variable (clear : ∀ path ∈ styled paths, (files.lookAtLink (stagingPath path)).isOk = false)

include clear

/-- A target is tidy where nothing is in the place of its staging file. -/
theorem tidy_of_mem_targets {c : Candidate}
    (target : c ∈ (ofPaths files exclusion paths).targets) : Tidy files c := by
  obtain ⟨listed, style, passed⟩ := of_mem_targets target
  refine tidy_of_clear (Candidate.ofPath?_eq_some_iff.mpr ⟨rfl, style⟩) ?_ ?_
  · intro aim link
    obtain ⟨content, mode, file⟩ := (SkipReason.of?_eq_none_iff.mp passed).1
    rw [link] at file
    exact absurd (Except.ok.inj file) (by simp)
  · exact clear c.path (List.mem_filter.mpr ⟨listed, by rw [style]; rfl⟩)

/-- Nothing is where the staging file of a target is made. -/
theorem absent_of_created {c : Candidate}
    (target : c ∈ (ofPaths files exclusion paths).targets) {goal : Location}
    (aims : c.Aims files goal)
    (opened : (files.resolve .created (stagingPath c.path)).isOk = true) :
    files.tree.get? (stagingPlace goal) = none := by
  have tidy := tidy_of_mem_targets clear target
  obtain ⟨listed, style, -⟩ := of_mem_targets target
  cases made : files.resolve .created (stagingPath c.path) with
  | error fault =>
    rw [made] at opened
    contradiction
  | ok place =>
    have kept := tidy.kept_of_created made
    rw [← aims.eq_stagingPlace tidy.made kept]
    exact absent_of_clear (clear c.path (List.mem_filter.mpr ⟨listed, by rw [style]; rfl⟩)) kept

/-- A file stays as it is where something obstructs every target. -/
theorem get?_of_obstructed (writes : batch.checkOnly = false) (device : Device) {c : Candidate}
    {goal : Location} (aims : c.Aims files goal) (made : Candidate.ofPath? c.path = some c)
    (obstructed : ∀ d ∈ (ofPaths files exclusion paths).targets,
      isObstructed device files d.path = true) :
    (batch.processSelection device files (ofPaths files exclusion paths)).files.tree.get? goal =
      files.tree.get? goal := by
  by_contra changed
  obtain ⟨d, target, rewrites⟩ := exists_rewrites writes device
    (fun c target => tidy_of_mem_targets clear target) (.refl files) made aims rfl changed
  have free := rewrites.free
  rw [obstructed d target] at free
  contradiction

end Clear

section More

variable (first : Exclusion.ofSources root fewer = .ok lax)
  (second : Exclusion.ofSources root more = .ok strict) (among : ∀ source ∈ fewer, source ∈ more)

include first second among

/-- A path that is not skipped with more patterns is not skipped with some of them. -/
theorem of?_eq_none_of_more {path : Path} (passed : SkipReason.of? files strict path = none) :
    SkipReason.of? files lax path = none := by
  rw [SkipReason.of?_eq_none_iff] at passed ⊢
  exact ⟨passed.1, Exclusion.verdict_eq_none_of_more first second among passed.2⟩

/-- The paths that are skipped with some patterns are skipped with more. -/
theorem ignored_of_more (files : FileSystem) (paths : List Path) :
    ((ofPaths files lax paths).ignored.map (·.path)).Sublist
      ((ofPaths files strict paths).ignored.map (·.path)) := by
  rw [paths_ignored, paths_ignored]
  refine List.monotone_filter_right _ fun path skipped => ?_
  cases passed : SkipReason.of? files strict path with
  | some reason => rfl
  | none =>
    rw [of?_eq_none_of_more first second among passed] at skipped
    contradiction

variable (reads : device.ReadsAlike paths) (fails : FailsAlike device paths)
  (clear : ∀ path ∈ styled paths, (files.lookAtLink (stagingPath path)).isOk = false)

include reads fails clear

/-- A file that is rewritten with more patterns is rewritten with some of them. -/
theorem exists_rewrites_of_more {c : Candidate} {goal : Location}
    (target : c ∈ (ofPaths files strict paths).targets)
    (rewrites : c.Rewrites device files goal) :
    ∃ d ∈ (ofPaths files lax paths).targets, d.Rewrites device files goal := by
  obtain ⟨aims, ⟨new, planned⟩, free⟩ := rewrites
  obtain ⟨listed, style, passed⟩ := of_mem_targets target
  obtain ⟨d, member, same, kind⟩ :=
    exists_target listed style (of?_eq_none_of_more first second among passed)
  obtain ⟨also, likewise, accepted⟩ := of_mem_targets member
  obtain ⟨place, content, mode, found, file⟩ := SkipReason.exists_file accepted
  have bare : files.tree.get? place ≠ some .directory := by
    rw [file]
    simp
  obtain rfl := FileSystem.resolve_eq_of_components same.symm aims.found aims.ne_directory found bare
  have tidy := tidy_of_mem_targets clear target
  obtain ⟨name, named, -, -⟩ := Candidate.exists_name tidy.made aims.found aims.ne_directory
  refine ⟨d, member, ⟨found, aims.leaf⟩, ⟨new, ?_⟩, ?_⟩
  · obtain ⟨text, read, rebuilt⟩ := Candidate.plan_eq_ok_iff.mp planned
    obtain ⟨readable, mode, there⟩ := Candidate.textOf_eq_ok_iff.mp read
    rw [reads c.path listed d.path also same.symm] at readable
    exact Candidate.plan_eq_ok_iff.mpr
      ⟨text, Candidate.textOf_eq_ok_iff.mpr ⟨readable, mode, there⟩, kind ▸ rebuilt⟩
  · have able : failsAt device d.path = false := by
      rw [← fails c.path listed d.path also same.symm, Bool.eq_false_iff]
      intro fail
      rw [isObstructed_of_failsAt fail] at free
      contradiction
    have absent := absent_of_created clear target aims (isOk_of_free free)
    exact free_of_components same.symm named found bare (by simp [absent]) free able

/-- A file that is changed with more patterns is changed with some of them, and ends up the same. -/
theorem changed_of_more (writes : batch.checkOnly = false) {place : Location} {entry : Entry}
    (there : files.tree.get? place = some entry) :
    let before := (batch.processSelection device files (ofPaths files lax paths)).files
    let after := (batch.processSelection device files (ofPaths files strict paths)).files
    after.tree.get? place ≠ files.tree.get? place →
      before.tree.get? place ≠ files.tree.get? place ∧
        after.tree.get? place = before.tree.get? place := by
  intro before after changed
  have laxly : ∀ c ∈ (ofPaths files lax paths).targets, Tidy files c :=
    fun c target => tidy_of_mem_targets clear target
  have strictly : ∀ c ∈ (ofPaths files strict paths).targets, Tidy files c :=
    fun c target => tidy_of_mem_targets clear target
  rcases get?_or_reached writes device strictly place with
    still | ⟨c, target, goal, aims, rfl | rfl⟩
  · exact absurd still changed
  · have made := (strictly c target).made
    obtain ⟨d, member, rewrites⟩ := exists_rewrites writes device strictly (.refl files) made aims
      rfl changed
    obtain ⟨e, also, rewrites⟩ :=
      exists_rewrites_of_more first second among reads fails clear member rewrites
    have likewise := get?_ne_of_rewrites writes device laxly also rewrites
    -- Both runs write the normal form of the text that is there, which is one.
    obtain ⟨text, mode, new, read, rebuilt, written⟩ :=
      (get?_or_rewritten writes device strictly (.refl files) made aims).resolve_left changed
    obtain ⟨text', mode', new', read', rebuilt', written'⟩ :=
      (get?_or_rewritten writes device laxly (.refl files) made aims).resolve_left likewise
    obtain ⟨content, rfl⟩ := Entry.file.inj (Option.some.inj (read.symm.trans read'))
    obtain rfl := Utf8.encode_inj.mp content
    obtain rfl := Option.some.inj (rebuilt.symm.trans rebuilt')
    exact ⟨likewise, written.trans written'.symm⟩
  · -- What a candidate leaves in the place of its staging file was not there.
    rcases staging_process writes device strictly (.refl files) (strictly c target).made aims with
      still | ⟨⟨d, member, also, opened⟩, -⟩
    · exact absurd still changed
    · have absent := absent_of_created clear member also opened
      rw [there] at absent
      contradiction

/-- With more exclude patterns no file is changed that is not changed with some of them, and those
that are end up the same; nothing is made where nothing was; and every path that is skipped with some
patterns is skipped with more. Nothing has to be where a staging file goes, and listed spellings of
one path have to fare alike: there is room for a staging file under all of them or under none, and
the device makes no difference. -/
theorem excluding_more (writes : batch.checkOnly = false) :
    let before := batch.processSelection device files (ofPaths files lax paths)
    let after := batch.processSelection device files (ofPaths files strict paths)
    (∀ place entry, files.tree.get? place = some entry → after.files.tree.get? place ≠ some entry →
      before.files.tree.get? place ≠ some entry ∧
        after.files.tree.get? place = before.files.tree.get? place) ∧
    ((∀ path ∈ paths, device.remove (stagingPath path) = none) →
      ∀ place, files.tree.get? place = none → after.files.tree.get? place = none) ∧
    ((ofPaths files lax paths).ignored.map (·.path)).Sublist
      ((ofPaths files strict paths).ignored.map (·.path)) := by
  intro before after
  refine ⟨fun place entry there changed => ?_, fun removes place absent => ?_,
    ignored_of_more first second among files paths⟩
  · rw [← there] at changed ⊢
    exact changed_of_more first second among reads fails clear writes there changed
  · exact absent_process writes device (fun c target => tidy_of_mem_targets clear target)
      (fun c target => removes c.path (of_mem_targets target).1) absent

end More

/-- Of two files one is excluded, and the other is rewritten as it is without that. -/
theorem excluding_more_listed :
    FailsAlike .reliable repeatedPaths ∧
      (∀ path ∈ styled repeatedPaths,
        (pairFiles.lookAtLink (stagingPath path)).isOk = false) ∧
      Exclusion.ofSources (.ofString "/") [] = .ok ⟨.ofString "/", []⟩ ∧
      Exclusion.ofSources (.ofString "/") ["a.c"] = .ok oneExcluded ∧
      let batch : Batch := ⟨.ofString "/", false, none⟩
      let before := batch.processSelection .reliable pairFiles
        (ofPaths pairFiles ⟨.ofString "/", []⟩ repeatedPaths)
      let after := batch.processSelection .reliable pairFiles
        (ofPaths pairFiles oneExcluded repeatedPaths)
      let goal := [Utf8.encode "b.py".toList]
      after.files.tree.get? goal ≠ pairFiles.tree.get? goal ∧
        after.files.tree.get? goal = before.files.tree.get? goal := by
  have fails : FailsAlike .reliable repeatedPaths := by
    unfold FailsAlike
    decide +kernel
  have clear : ∀ path ∈ styled repeatedPaths,
      (pairFiles.lookAtLink (stagingPath path)).isOk = false := by
    intro path listed
    have member := (List.mem_filter.mp listed).1
    unfold repeatedPaths at member
    simp only [List.map_cons, List.map_nil, List.mem_cons, List.not_mem_nil, or_false] at member
    rcases member with rfl | rfl | rfl
    · cbv
    · cbv
    · cbv
  have first : Exclusion.ofSources (.ofString "/") [] = .ok ⟨.ofString "/", []⟩ := rfl
  have second : Exclusion.ofSources (.ofString "/") ["a.c"] = .ok oneExcluded := by cbv
  have there : pairFiles.tree.get? [Utf8.encode "b.py".toList] =
      some (.file (Utf8.encode "x = 1\n".toList) 0o644) := by
    decide +kernel
  have made : normalize .sharp "x = 1\n".toList =
      some (Style.sharp.header ++ "x = 1\n".toList) := by
    decide +kernel
  have target : ⟨.ofString "/b.py", .sharp⟩ ∈
      (ofPaths pairFiles oneExcluded repeatedPaths).targets := by
    refine mem_targets (by decide +kernel) (by cbv) (by cbv) ?_
    have apart : ∀ path ∈ repeatedPaths,
        path.components = (Path.ofString "/b.py").components → path = .ofString "/b.py" := by
      decide +kernel
    exact fun path listed same _ => apart path listed same
  have rewrites : Candidate.Rewrites .reliable pairFiles ⟨.ofString "/b.py", .sharp⟩
      [Utf8.encode "b.py".toList] :=
    .of_made (by cbv) there rfl made (by cbv)
  refine ⟨fails, clear, first, second, ?_⟩
  intro batch before after goal
  have writes : batch.checkOnly = false := rfl
  have reads : Device.reliable.ReadsAlike repeatedPaths := fun _ _ _ _ _ => rfl
  obtain ⟨changed, -, -⟩ := excluding_more first second (by simp) reads fails clear writes
  have touched : after.files.tree.get? goal ≠ pairFiles.tree.get? goal :=
    get?_ne_of_rewrites rfl .reliable (fun c target => tidy_of_mem_targets clear target) target
      rewrites
  exact ⟨touched, (changed goal _ there (there ▸ touched)).2⟩

section Deep

/-- A source file below two directories. -/
def deepFiles : FileSystem where
  tree := ⟨[([Utf8.encode "x".toList], .directory),
    ([Utf8.encode "x".toList, Utf8.encode "y".toList], .directory),
    ([Utf8.encode "x".toList, Utf8.encode "y".toList, Utf8.encode "a.c".toList],
      .file (Utf8.encode "int x;\n".toList) 0o644)]⟩
  workingDirectory := []

/-- The location of the source file. -/
def deepPlace : Location :=
  [Utf8.encode "x".toList, Utf8.encode "y".toList, Utf8.encode "a.c".toList]

/-- The path of the source file with dots behind the first directory. -/
def deepPath (count : Nat) : Path :=
  .dotted (Utf8.encode "x".toList) [Utf8.encode "y".toList, Utf8.encode "a.c".toList] count

/-- The exclusion of all paths with a dot behind the first directory. -/
def dotsExcluded : Exclusion where
  root := .ofString "/"
  patterns := [⟨"x/./**", ("x".toList ++ "/./".toList).map .literal ++ [.anyDirectories]⟩]

/-- The directories and the file are written as names. -/
theorem isName_deep : Path.IsName (Utf8.encode "x".toList) ∧
    (∀ name ∈ [Utf8.encode "y".toList], Path.IsName name) ∧
    Path.IsName (Utf8.encode "a.c".toList) :=
  ⟨by decide, by decide, by decide⟩

/-- What comes behind the dots is written as names. -/
theorem isName_behind :
    ∀ name ∈ [Utf8.encode "y".toList, Utf8.encode "a.c".toList], Path.IsName name :=
  List.forall_mem_append.mpr ⟨isName_deep.2.1, List.forall_mem_singleton.mpr isName_deep.2.2⟩

/-- The source file is at its location. -/
theorem get?_deepPlace : deepFiles.tree.get? deepPlace =
    some (.file (Utf8.encode "int x;\n".toList) 0o644) := by
  decide +kernel

variable {count : Nat}

/-- Dots do not change the components. -/
theorem components_deepPath (count : Nat) : (deepPath count).components =
    [.entry (Utf8.encode "x".toList), .entry (Utf8.encode "y".toList),
      .entry (Utf8.encode "a.c".toList)] :=
  Path.components_dotted isName_deep.1 isName_behind count

/-- The path takes seven bytes, and each dot two more. -/
theorem length_deepPath (count : Nat) : (deepPath count).bytes.length = 2 * count + 7 :=
  Path.length_dotted (List.cons_ne_nil _ _) count

/-- The path of the staging file takes twelve bytes more. -/
theorem length_stagingPath_deepPath (count : Nat) :
    (stagingPath (deepPath count)).bytes.length = 2 * count + 19 := by
  obtain ⟨first, second, third⟩ := isName_deep
  have length := @length_stagingPath_dotted _ _ _ [] count first second third
  have known := length_deepPath count
  unfold deepPath at known ⊢
  exact length.trans (congrArg (· + 12) known)

/-- The path has the style of the file however many dots it holds. -/
theorem style_deepPath (count : Nat) : Style.ofPath? (deepPath count) = some .block := by
  have plain : Style.ofPath? (deepPath 0) = some .block := by cbv
  rw [Style.ofPath?_congr ((components_deepPath count).trans (components_deepPath 0).symm), plain]

/-- The path does not lie below the root, so that patterns are matched with all of it. -/
theorem belowOrSelf_deepPath (count : Nat) :
    (deepPath count).belowOrSelf (.ofString "/") = deepPath count := by
  have root : (Path.ofString "/").components = [.root] := by cbv
  unfold Path.belowOrSelf Path.below?
  rw [root, components_deepPath]
  rfl

/-- The path leads to the source file unless it is too long. -/
theorem resolve_deepPath (short : 2 * count + 7 ≤ FileSystem.pathLimit) :
    deepFiles.resolve .kept (deepPath count) = .ok deepPlace := by
  have solid : deepFiles.tree.get? deepPlace ≠ some .directory := by
    rw [get?_deepPlace]
    decide
  exact FileSystem.resolve_dotted isName_deep.1 isName_behind (List.cons_ne_nil _ _) (by cbv) solid
    ((length_deepPath count).trans_le short)

/-- The path is not skipped without patterns unless it is too long. -/
theorem of?_deepPath (short : 2 * count + 7 ≤ FileSystem.pathLimit) :
    SkipReason.of? deepFiles ⟨.ofString "/", []⟩ (deepPath count) = none := by
  have regular := FileSystem.lookAtLink_eq_ok_iff.mpr
    ⟨deepPlace, resolve_deepPath short, get?_deepPlace⟩
  exact SkipReason.of?_eq_none_iff.mpr ⟨⟨_, _, regular⟩, rfl⟩

/-- The path is excluded if it holds a dot. -/
theorem verdict_deepPath (count : Nat) : dotsExcluded.verdict (deepPath (count + 1)) ≠ none := by
  have matched (pattern : Pattern) (member : pattern ∈ dotsExcluded.patterns) :
      Exclusion.matchesPath pattern (deepPath (count + 1)) = true := by
    rw [List.mem_singleton.mp member]
    exact Exclusion.matchesPath_dotted (List.cons_ne_nil _ _) (by simp [Path.IsText]) _ count
  have root : dotsExcluded.root = .ofString "/" := rfl
  unfold Exclusion.verdict
  rw [ne_eq, Option.map_eq_none_iff, List.find?_eq_none, root, belowOrSelf_deepPath]
  exact fun none => none _ List.mem_cons_self (matched _ List.mem_cons_self)

/-- No staging file is there, and there is no room for one under the path with dots. -/
theorem clear_deepPath (tight : FileSystem.pathLimit < 2 * count + 19) :
    ∀ path ∈ styled [deepPath count, deepPath 0],
      (deepFiles.lookAtLink (stagingPath path)).isOk = false := by
  intro path listed
  rcases List.mem_cons.mp (List.mem_filter.mp listed).1 with rfl | plain
  · exact FileSystem.isOk_lookAtLink_of_long (by rwa [length_stagingPath_deepPath]) deepFiles
  · rw [List.mem_singleton.mp plain]
    cbv

variable {batch : Batch} (writes : batch.checkOnly = false)
  (tight : FileSystem.pathLimit < 2 * count + 19)

include writes tight

/-- The path with dots hides the plain one, and the file is not rewritten under it. -/
theorem get?_process_deepPath (short : 2 * count + 7 ≤ FileSystem.pathLimit) :
    (batch.processSelection .reliable deepFiles (ofPaths deepFiles ⟨.ofString "/", []⟩
      [deepPath count, deepPath 0])).files.tree.get? deepPlace = deepFiles.tree.get? deepPlace := by
  have same := (components_deepPath count).trans (components_deepPath 0).symm
  have level : ((deepPath count).belowOrSelf (.ofString "/")).components =
      ((deepPath 0).belowOrSelf (.ofString "/")).components := by
    rwa [belowOrSelf_deepPath, belowOrSelf_deepPath]
  have alone : (ofPaths deepFiles ⟨.ofString "/", []⟩ [deepPath count, deepPath 0]).targets =
      [⟨deepPath count, .block⟩] :=
    targets_pair (style_deepPath count) same level (of?_deepPath short) (of?_deepPath (by decide))
  have made : Candidate.ofPath? (deepPath count) = some ⟨deepPath count, .block⟩ :=
    Candidate.ofPath?_eq_some_iff.mpr ⟨rfl, style_deepPath count⟩
  have aims : Candidate.Aims deepFiles ⟨deepPath count, .block⟩ deepPlace :=
    ⟨resolve_deepPath short, FileTree.isLeaf_of_file get?_deepPlace⟩
  refine get?_of_obstructed (clear_deepPath tight) writes .reliable aims made fun d target => ?_
  rw [alone] at target
  rw [List.mem_singleton.mp target]
  exact isObstructed_of_failsAt
    (failsAt_of_long (by rwa [length_stagingPath_deepPath]) .reliable) deepFiles

/-- Without the path with dots the file is rewritten under the plain one. -/
theorem get?_process_deepPath_ne (dots : count ≠ 0) :
    (batch.processSelection .reliable deepFiles (ofPaths deepFiles dotsExcluded
      [deepPath count, deepPath 0])).files.tree.get? deepPlace ≠ deepFiles.tree.get? deepPlace := by
  obtain ⟨more, rfl⟩ := Nat.exists_eq_succ_of_ne_zero dots
  have target : ⟨deepPath 0, .block⟩ ∈
      (ofPaths deepFiles dotsExcluded [deepPath (more + 1), deepPath 0]).targets := by
    refine mem_targets (by simp) (style_deepPath 0) (by cbv) ?_
    intro path listed _ passed
    rcases List.mem_cons.mp listed with rfl | plain
    · exact absurd (SkipReason.of?_eq_none_iff.mp passed).2 (verdict_deepPath more)
    · exact List.mem_singleton.mp plain
  have made : normalize .block "int x;\n".toList =
      some (Style.block.header ++ "int x;\n".toList) := by
    decide +kernel
  exact get?_ne_of_rewrites writes .reliable
    (fun c target => tidy_of_mem_targets (clear_deepPath tight) target) target
    (.of_made (resolve_deepPath (by decide)) get?_deepPlace rfl made (by cbv))

end Deep

/-- A file is rewritten when a spelling of its path is excluded under which there is no room for its
staging file, and it is not rewritten otherwise. -/
theorem excluding_more_crowded :
    let paths := [deepPath 2040, deepPath 0]
    let batch : Batch := ⟨.ofString "/", false, none⟩
    let before := batch.processSelection .reliable deepFiles
      (ofPaths deepFiles ⟨.ofString "/", []⟩ paths)
    let after := batch.processSelection .reliable deepFiles (ofPaths deepFiles dotsExcluded paths)
    Exclusion.ofSources (.ofString "/") [] = .ok ⟨.ofString "/", []⟩ ∧
      Exclusion.ofSources (.ofString "/") ["x/./**"] = .ok dotsExcluded ∧
      (∀ path ∈ styled paths, (deepFiles.lookAtLink (stagingPath path)).isOk = false) ∧
      deepPath 0 = .ofString "x/y/a.c" ∧
      before.files.tree.get? deepPlace = deepFiles.tree.get? deepPlace ∧
      after.files.tree.get? deepPlace ≠ deepFiles.tree.get? deepPlace :=
  ⟨rfl, by cbv, clear_deepPath (by decide), by decide +kernel,
    get?_process_deepPath rfl (by decide) (by decide),
    get?_process_deepPath_ne rfl (by decide) (by decide)⟩

end Selection

end LicenseHeader
