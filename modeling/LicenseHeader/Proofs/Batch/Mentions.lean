import LicenseHeader.Proofs.Batch.Reports
import LicenseHeader.Proofs.Path.Order
import LicenseHeader.Report.Summary

/-!
# How often a file is reported

A source may mention a file more than once, in spellings with the same components. The mentions that
are not skipped become one target, since sorting brings them together
(`Selection.nodup_targets`), but each one that is skipped has a report of its own
(`Selection.paths_ignored`). `reported_once_iff` says when all files are reported once, and the
summary counts files.
-/

namespace LicenseHeader

/-- How often paths mention the file that a path writes, in any spelling with its components. -/
def mentions (paths : List Path) (path : Path) : Nat :=
  (paths.map Path.components).count path.components

/-- A file is mentioned as often as in either part of the paths. -/
theorem mentions_append (first second : List Path) (path : Path) :
    mentions (first ++ second) path = mentions first path + mentions second path := by
  unfold mentions
  rw [List.map_append, List.count_append]

/-- Paths mention the files of which they hold a spelling. -/
theorem mentions_pos_iff {paths : List Path} {path : Path} :
    0 < mentions paths path ↔ ∃ other ∈ paths, other.components = path.components := by
  unfold mentions
  rw [List.count_pos_iff, List.mem_map]

/-- The mentions of a file are among the paths that a test passes and among those that it fails. -/
theorem mentions_filter (passes : Path → Bool) (paths : List Path) (path : Path) :
    mentions paths path =
      mentions (paths.filter passes) path + mentions (paths.filter fun p => !passes p) path := by
  rw [← mentions_append]
  unfold mentions
  exact ((List.filter_append_perm passes paths).map Path.components).count_eq _ |>.symm

section Sorted

variable {α : Type} {le : α → α → Bool} {list : List α} {x y z : α}
  (trans : ∀ x y z, le x y = true → le y z = true → le x z = true)
  (total : ∀ x y, (le x y || le y x) = true)

include trans total

/-- The elements at one place stand in a sorted list as they stood before. -/
theorem filter_mergeSort (list : List α) (x : α) :
    ((list.mergeSort le).filter fun y => le x y && le y x) =
      list.filter fun y => le x y && le y x := by
  have level : (list.filter fun y => le x y && le y x).Pairwise fun y z => le y z = true := by
    refine List.pairwise_iff_forall_sublist.mpr fun {y z} pair => ?_
    have here := (List.mem_filter.mp (pair.mem List.mem_cons_self)).2
    have there := (List.mem_filter.mp (pair.mem (List.mem_cons_of_mem y List.mem_cons_self))).2
    rw [Bool.and_eq_true] at here there
    exact trans y x z here.2 there.1
  have kept := (List.sublist_mergeSort trans total level List.filter_sublist).filter
    fun y => le x y && le y x
  simp only [List.filter_filter, Bool.and_self] at kept
  exact (kept.eq_of_length ((List.mergeSort_perm list le).filter _).length_eq.symm).symm

/-- Three elements of which the outer ones are at one place stand in a sorted list exactly when they
stood before as they do and all of them are there. -/
theorem triple_sublist_mergeSort_iff (level : le x z = true) (back : le z x = true) :
    [x, y, z].Sublist (list.mergeSort le) ↔
      [x, y, z].Sublist list ∧ le x y = true ∧ le y x = true := by
  constructor
  · intro inside
    have sorted := (List.pairwise_mergeSort trans total list).sublist inside
    obtain ⟨first, second⟩ := List.pairwise_cons.mp sorted
    have up : le x y = true := first y List.mem_cons_self
    have down : le y x = true :=
      trans y z x ((List.pairwise_cons.mp second).1 z List.mem_cons_self) back
    have among := inside.filter fun w => le x w && le w x
    rw [filter_mergeSort trans total] at among
    have all : [x, y, z].filter (fun w => le x w && le w x) = [x, y, z] := by
      simp [trans x z x level back, up, down, level, back]
    rw [all] at among
    exact ⟨among.trans List.filter_sublist, up, down⟩
  · rintro ⟨inside, up, down⟩
    refine List.sublist_mergeSort trans total ?_ inside
    have onward := trans y x z down level
    simp [up, level, onward]

end Sorted

namespace Style

/-- Paths with the same components have the same style. -/
theorem ofPath?_congr {path other : Path} (same : path.components = other.components) :
    ofPath? path = ofPath? other := by
  unfold ofPath? Path.fileName?
  rw [same]

end Style

namespace Selection

variable {files : FileSystem} {exclusion : Exclusion} {paths : List Path}

/-- The order of targets is total. -/
theorem placed_total (root : Path) (c d : Candidate) :
    (placed root c d || placed root d c) = true :=
  Path.le_total _ _

/-- The order of targets is transitive. -/
theorem placed_trans (root : Path) (c d e : Candidate) (first : placed root c d = true)
    (second : placed root d e = true) : placed root c e = true :=
  Path.le_trans _ _ _ first second

/-- Candidates at the same place below a root are the same. -/
theorem same_iff_placed {root : Path} {c d : Candidate} (absolute : c.path.isAbsolute = true)
    (also : d.path.isAbsolute = true) (styled : Style.ofPath? c.path = some c.style)
    (likewise : Style.ofPath? d.path = some d.style) :
    c.same d = true ↔ placed root c d = true ∧ placed root d c = true := by
  have left := Path.components_belowOrSelf_iff root absolute also
  rw [Candidate.same_iff]
  constructor
  · rintro ⟨components, -⟩
    have same := left.mpr components
    exact ⟨Path.le_of_components_eq same, Path.le_of_components_eq same.symm⟩
  · intro ⟨first, second⟩
    have components := left.mp (Path.le_antisymm first second)
    rw [Style.ofPath?_congr components, likewise] at styled
    exact ⟨components, (Option.some.inj styled).symm⟩

/-- The candidates that are not skipped, in the order in which they are listed. -/
def accepted (files : FileSystem) (exclusion : Exclusion) (paths : List Path) : List Candidate :=
  (paths.filterMap Candidate.ofPath?).filter fun c =>
    (SkipReason.of? files exclusion c.path).isNone

/-- An accepted candidate is listed and has its style. -/
theorem of_mem_accepted {c : Candidate} (member : c ∈ accepted files exclusion paths) :
    c.path ∈ paths ∧ Style.ofPath? c.path = some c.style := by
  obtain ⟨path, listed, made⟩ := List.mem_filterMap.mp (List.mem_filter.mp member).1
  obtain ⟨rfl, style⟩ := Candidate.ofPath?_eq_some_iff.mp made
  exact ⟨listed, style⟩

/-- No two targets are the same exactly when accepted candidates that are the same have none between
them that is another and stands at their place below the root. -/
theorem pairwise_targets_iff (files : FileSystem) (exclusion : Exclusion) (paths : List Path) :
    ((ofPaths files exclusion paths).targets.Pairwise fun c d => c.same d = false) ↔
      ∀ c d e, [c, d, e].Sublist (accepted files exclusion paths) → c.same e = true →
        (c.path.belowOrSelf exclusion.root).components =
          (d.path.belowOrSelf exclusion.root).components → c.same d = true := by
  refine (pairwise_dropRepeats_iff Candidate.equivalence_same _).trans ?_
  refine forall₃_congr fun c d e => ?_
  have stand (like : c.same e = true) :
      [c, d, e].Sublist ((accepted files exclusion paths).mergeSort (placed exclusion.root)) ↔
        [c, d, e].Sublist (accepted files exclusion paths) ∧
          placed exclusion.root c d = true ∧ placed exclusion.root d c = true := by
    have left := (Path.components_belowOrSelf_eq_iff exclusion.root c.path e.path).mpr
      (.inl (Candidate.same_iff.mp like).1)
    exact triple_sublist_mergeSort_iff (placed_trans _) (placed_total _)
      (Path.le_of_components_eq left) (Path.le_of_components_eq left.symm)
  constructor
  · intro between inside like level
    refine between ((stand like).mpr ⟨inside, ?_, ?_⟩) like
    · exact Path.le_of_components_eq level
    · exact Path.le_of_components_eq level.symm
  · intro between sorted like
    obtain ⟨inside, up, down⟩ := (stand like).mp sorted
    exact between inside like (Path.le_antisymm up down)

/-- No two targets have the same components. -/
theorem nodup_targets (files : FileSystem) (exclusion : Exclusion)
    (absolute : ∀ path ∈ paths, path.isAbsolute = true) :
    ((ofPaths files exclusion paths).targets.map fun c => c.path.components).Nodup := by
  have apart : (ofPaths files exclusion paths).targets.Pairwise fun c d => c.same d = false := by
    refine (pairwise_targets_iff files exclusion paths).mpr fun c d e inside _ level => ?_
    obtain ⟨here, style⟩ := of_mem_accepted (inside.mem List.mem_cons_self)
    obtain ⟨there, also⟩ :=
      of_mem_accepted (inside.mem (List.mem_cons_of_mem c List.mem_cons_self))
    exact (same_iff_placed (absolute _ here) (absolute _ there) style also).mpr
      ⟨Path.le_of_components_eq level, Path.le_of_components_eq level.symm⟩
  refine List.pairwise_map.mpr (apart.imp_of_mem fun here there distinct components => ?_)
  have style := (of_mem_targets here).2.1
  rw [Style.ofPath?_congr components, (of_mem_targets there).2.1] at style
  rw [Candidate.same_iff.mpr ⟨components, (Option.some.inj style).symm⟩] at distinct
  contradiction

/-- The paths that have a style. -/
def styled (paths : List Path) : List Path := paths.filter fun path => (Style.ofPath? path).isSome

/-- The paths that are skipped. -/
def skipped (files : FileSystem) (exclusion : Exclusion) (paths : List Path) : List Path :=
  paths.filter fun path => (SkipReason.of? files exclusion path).isSome

/-- The paths that are not skipped. -/
def chosen (files : FileSystem) (exclusion : Exclusion) (paths : List Path) : List Path :=
  paths.filter fun path => !(SkipReason.of? files exclusion path).isSome

/-- Each listed path with a style that is skipped has a report, in the order of the list. -/
theorem paths_ignored : (ofPaths files exclusion paths).ignored.map (·.path) =
    skipped files exclusion (styled paths) := by
  unfold ofPaths skipped styled
  induction paths with
  | nil => rfl
  | cons path more ih =>
    dsimp only at ih ⊢
    cases style : Style.ofPath? path with
    | none => simp [Candidate.ofPath?, style, ih]
    | some found =>
      cases skip : SkipReason.of? files exclusion path with
      | none => simp [Candidate.ofPath?, style, skip, ih]
      | some reason =>
        simp only [List.filterMap_cons, Candidate.ofPath?, style, skip, Option.map_some,
          List.map_cons, ih, List.filter_cons, Option.isSome_some, if_true]
        rfl

/-- A file is mentioned by the targets once if one of its spellings is not skipped. -/
theorem mentions_targets (absolute : ∀ path ∈ paths, path.isAbsolute = true) {path : Path}
    (style : (Style.ofPath? path).isSome = true) :
    mentions ((ofPaths files exclusion paths).targets.map (·.path)) path =
      min 1 (mentions (chosen files exclusion paths) path) := by
  have nodup := nodup_targets files exclusion absolute
  have once : mentions ((ofPaths files exclusion paths).targets.map (·.path)) path ≤ 1 := by
    unfold mentions
    rw [List.map_map]
    exact List.nodup_iff_count_le_one.mp nodup _
  have found : 0 < mentions ((ofPaths files exclusion paths).targets.map (·.path)) path ↔
      0 < mentions (chosen files exclusion paths) path := by
    rw [mentions_pos_iff, mentions_pos_iff]
    constructor
    · rintro ⟨other, member, same⟩
      obtain ⟨c, target, rfl⟩ := List.mem_map.mp member
      obtain ⟨listed, -, passed⟩ := of_mem_targets target
      exact ⟨c.path, List.mem_filter.mpr ⟨listed, by rw [passed]; rfl⟩, same⟩
    · rintro ⟨other, member, same⟩
      obtain ⟨listed, passed⟩ := List.mem_filter.mp member
      obtain ⟨kind, known⟩ := Option.isSome_iff_exists.mp style
      rw [← Style.ofPath?_congr same] at known
      obtain ⟨c, target, spelled, -⟩ := exists_target listed known (by simpa using passed)
      exact ⟨c.path, List.mem_map.mpr ⟨c, target, rfl⟩, spelled.trans same⟩
  omega

/-- A file with a style is mentioned by the paths that have one as often as by all. -/
theorem mentions_styled {path : Path} (style : (Style.ofPath? path).isSome = true) :
    mentions (styled paths) path = mentions paths path := by
  have parts := mentions_filter (fun p => (Style.ofPath? p).isSome) paths path
  have none : mentions (paths.filter fun p => !(Style.ofPath? p).isSome) path = 0 := by
    apply Nat.eq_zero_of_not_pos
    rw [mentions_pos_iff]
    rintro ⟨other, member, same⟩
    have plain := (List.mem_filter.mp member).2
    rw [Style.ofPath?_congr same, style] at plain
    contradiction
  rw [none, Nat.add_zero] at parts
  exact parts.symm

section Reports

variable (batch : Batch) (device : Device) (files : FileSystem) (exclusion : Exclusion)

/-- The paths that are reported when the selection from listed paths is processed. -/
def reportedPaths (paths : List Path) : List Path :=
  (batch.processSelection device files (ofPaths files exclusion paths)).reports.map (·.path)

/-- The reported paths are those that are skipped and those of the targets. -/
theorem reportedPaths_eq (paths : List Path) :
    reportedPaths batch device files exclusion paths =
      skipped files exclusion (styled paths) ++
        (ofPaths files exclusion paths).targets.map (·.path) := by
  unfold reportedPaths Batch.processSelection
  rw [List.map_append, Batch.paths_process, paths_ignored]

/-- A file is reported once for each of its spellings that is skipped, and once more if one is
not. -/
theorem mentions_reportedPaths (absolute : ∀ path ∈ paths, path.isAbsolute = true) {path : Path}
    (style : (Style.ofPath? path).isSome = true) :
    mentions (reportedPaths batch device files exclusion paths) path =
      mentions (skipped files exclusion paths) path +
        min 1 (mentions (chosen files exclusion paths) path) := by
  have swapped : skipped files exclusion (styled paths) = styled (skipped files exclusion paths) :=
    List.filter_comm _ _ paths
  rw [reportedPaths_eq, mentions_append, swapped, mentions_styled style,
    mentions_targets absolute style]

/-- Only listed paths with a style are reported. -/
theorem mem_styled_of_reported {path : Path}
    (reported : path ∈ reportedPaths batch device files exclusion paths) :
    path ∈ styled paths := by
  rw [reportedPaths_eq] at reported
  rcases List.mem_append.mp reported with skipped | target
  · exact (List.mem_filter.mp skipped).1
  · obtain ⟨c, there, same⟩ := List.mem_map.mp target
    obtain ⟨listed, style, -⟩ := of_mem_targets there
    rw [← same]
    exact List.mem_filter.mpr ⟨listed, by rw [style]; rfl⟩

/-- A listed file with a style is mentioned by those that are skipped or by those that are not. -/
theorem mentions_listed {path : Path} (listed : path ∈ styled paths) :
    0 < mentions paths path ∧ mentions paths path = mentions (skipped files exclusion paths) path +
      mentions (chosen files exclusion paths) path :=
  ⟨mentions_pos_iff.mpr ⟨path, (List.mem_filter.mp listed).1, rfl⟩, mentions_filter _ paths path⟩

/-- A listed file is reported once exactly when none of its spellings is skipped, or when it is
listed once. -/
theorem mentions_reportedPaths_eq_one_iff (absolute : ∀ path ∈ paths, path.isAbsolute = true)
    {path : Path} (listed : path ∈ styled paths) :
    mentions (reportedPaths batch device files exclusion paths) path = 1 ↔
      mentions (skipped files exclusion paths) path = 0 ∨ mentions paths path = 1 := by
  have parts := mentions_listed files exclusion listed
  rw [mentions_reportedPaths batch device files exclusion absolute (List.mem_filter.mp listed).2]
  omega

/-- The same files are reported as are listed with a style. -/
theorem mem_reported_iff (absolute : ∀ path ∈ paths, path.isAbsolute = true)
    (components : List Component) :
    components ∈ (reportedPaths batch device files exclusion paths).map Path.components ↔
      components ∈ (styled paths).map Path.components := by
  constructor
  · intro member
    obtain ⟨path, reported, rfl⟩ := List.mem_map.mp member
    exact List.mem_map_of_mem (mem_styled_of_reported batch device files exclusion reported)
  · intro member
    obtain ⟨path, listed, rfl⟩ := List.mem_map.mp member
    have parts := mentions_listed files exclusion listed
    have often := mentions_reportedPaths batch device files exclusion absolute
      (List.mem_filter.mp listed).2
    obtain ⟨other, reported, same⟩ := mentions_pos_iff.mp (show 0 < _ by rw [often]; omega)
    rw [← same]
    exact List.mem_map_of_mem reported

/-- No file is reported twice exactly when every listed one is reported once. -/
theorem nodup_reported_iff (absolute : ∀ path ∈ paths, path.isAbsolute = true) :
    ((reportedPaths batch device files exclusion paths).map Path.components).Nodup ↔
      ∀ path ∈ styled paths,
        mentions (reportedPaths batch device files exclusion paths) path = 1 := by
  have same := mem_reported_iff batch device files exclusion absolute
  rw [List.nodup_iff_count_le_one]
  constructor
  · intro least path listed
    have reported := (same path.components).mpr (List.mem_map_of_mem listed)
    exact Nat.le_antisymm (least path.components) (List.count_pos_iff.mpr reported)
  · intro once components
    by_cases reported : components ∈
        (reportedPaths batch device files exclusion paths).map Path.components
    · obtain ⟨path, listed, rfl⟩ := List.mem_map.mp ((same components).mp reported)
      exact (once path listed).le
    · rw [List.count_eq_zero_of_not_mem reported]
      exact Nat.zero_le 1

end Reports

end Selection

/-- How many files with a style paths mention. -/
def fileCount (paths : List Path) : Nat :=
  ((Selection.styled paths).map Path.components).dedup.length

/-- As many different elements as all are in a list exactly when none is there twice. -/
theorem length_eq_dedup_iff {α : Type} [DecidableEq α] {list other : List α}
    (same : ∀ x, x ∈ list ↔ x ∈ other) : list.length = other.dedup.length ↔ list.Nodup := by
  have shared := (List.perm_ext_iff_of_nodup list.nodup_dedup other.nodup_dedup).mpr
    (by simpa using same)
  rw [← shared.length_eq, ← List.dedup_eq_self, eq_comm]
  exact (List.dedup_sublist list).length_eq

namespace Summary

/-- Every report is counted by one action. -/
theorem count_add_eq_length (reports : List Report) :
    count reports .updated + count reports .unchanged + count reports .failed +
      count reports .ignored = reports.length := by
  induction reports with
  | nil => rfl
  | cons report more ih =>
    unfold count at ih ⊢
    simp only [List.countP_cons, List.length_cons]
    cases report.action <;> simp <;> omega

end Summary

namespace Selection

section Counts

variable {files : FileSystem} {exclusion : Exclusion} {paths : List Path}

/-- There are as many targets as there are files of which a spelling is not skipped. -/
theorem length_targets (absolute : ∀ path ∈ paths, path.isAbsolute = true) :
    (ofPaths files exclusion paths).targets.length =
      fileCount (chosen files exclusion paths) := by
  have nodup := nodup_targets files exclusion absolute
  unfold fileCount
  rw [← List.length_map (f := fun c : Candidate => c.path.components), length_eq_dedup_iff]
  · exact nodup
  · intro components
    constructor
    · intro member
      obtain ⟨c, target, rfl⟩ := List.mem_map.mp member
      obtain ⟨listed, style, passed⟩ := of_mem_targets target
      refine List.mem_map_of_mem (List.mem_filter.mpr ⟨List.mem_filter.mpr ⟨listed, ?_⟩, ?_⟩)
      · rw [passed]
        rfl
      · rw [style]
        rfl
    · intro member
      obtain ⟨path, among, rfl⟩ := List.mem_map.mp member
      obtain ⟨there, style⟩ := List.mem_filter.mp among
      obtain ⟨listed, passed⟩ := List.mem_filter.mp there
      obtain ⟨kind, known⟩ := Option.isSome_iff_exists.mp style
      obtain ⟨c, target, spelled, -⟩ := exists_target listed known (by simpa using passed)
      exact List.mem_map.mpr ⟨c, target, spelled⟩

/-- There are as many reports of skipped files as there are mentions that are skipped. -/
theorem count_ignored (batch : Batch) (device : Device) (files : FileSystem)
    (exclusion : Exclusion) (paths : List Path) :
    Summary.count (batch.processSelection device files
      (ofPaths files exclusion paths)).reports .ignored =
        (skipped files exclusion (styled paths)).length := by
  have all : (ofPaths files exclusion paths).ignored.countP (·.action = .ignored) =
      (ofPaths files exclusion paths).ignored.length := by
    rw [List.countP_eq_length]
    intro report member
    obtain ⟨c, reason, -, -, -, rfl⟩ := of_mem_ignored member
    rfl
  have none : (batch.process device files (ofPaths files exclusion paths).targets).reports.countP
      (·.action = .ignored) = 0 := by
    rw [List.countP_eq_zero]
    intro report member skipped
    exact batch.action_process_ne device files _ report member (of_decide_eq_true skipped)
  unfold Summary.count Batch.processSelection
  rw [List.countP_append, all, none, Nat.add_zero, ← paths_ignored, List.length_map]

end Counts

/-- Of absolute paths each file with a style is reported once for every listed spelling that is
skipped, and once for all others. So all are reported once exactly when no skipped spelling is of a
file that is listed again, and only then the total of the summary is the number of files. The number
of skipped files counts the listed spellings, and the other numbers count files. -/
theorem reported_once_iff {paths : List Path}
    (absolute : ∀ path ∈ paths, path.isAbsolute = true) (batch : Batch) (device : Device)
    (files : FileSystem) (exclusion : Exclusion) (elapsed : Elapsed) :
    let reports := (batch.processSelection device files (ofPaths files exclusion paths)).reports
    let summary := Summary.ofReports reports elapsed
    let clear := ∀ path ∈ styled paths,
      mentions (skipped files exclusion paths) path = 0 ∨ mentions paths path = 1
    (∀ report ∈ reports, report.path ∈ styled paths) ∧
      (∀ path ∈ styled paths, mentions (reports.map (·.path)) path =
        mentions (skipped files exclusion paths) path +
          min 1 (mentions (chosen files exclusion paths) path)) ∧
      ((∀ path ∈ styled paths, mentions (reports.map (·.path)) path = 1) ↔ clear) ∧
      (summary.total = fileCount paths ↔ clear) ∧
      summary.ignored = (skipped files exclusion (styled paths)).length ∧
      summary.updated + summary.unchanged + summary.failed =
        fileCount (chosen files exclusion paths) := by
  intro reports summary clear
  have once : (∀ path ∈ styled paths, mentions (reports.map (·.path)) path = 1) ↔ clear :=
    forall₂_congr fun path listed =>
      mentions_reportedPaths_eq_one_iff batch device files exclusion absolute listed
  have skips : summary.ignored = (skipped files exclusion (styled paths)).length :=
    count_ignored batch device files exclusion paths
  have total : summary.total = (skipped files exclusion (styled paths)).length +
      (ofPaths files exclusion paths).targets.length := by
    have length := congrArg List.length (reportedPaths_eq batch device files exclusion paths)
    unfold reportedPaths at length
    rwa [List.length_append, List.length_map, List.length_map] at length
  refine ⟨?_, ?_, once, ?_, skips, ?_⟩
  · intro report member
    exact mem_styled_of_reported batch device files exclusion (List.mem_map_of_mem member)
  · intro path listed
    exact mentions_reportedPaths batch device files exclusion absolute
      (List.mem_filter.mp listed).2
  · have distinct := length_eq_dedup_iff
      (mem_reported_iff batch device files exclusion absolute)
    rw [nodup_reported_iff batch device files exclusion absolute] at distinct
    unfold reportedPaths at distinct
    rw [List.length_map, List.length_map] at distinct
    exact distinct.trans once
  · have counted : summary.updated + summary.unchanged + summary.failed + summary.ignored =
        summary.total := Summary.count_add_eq_length reports
    rw [length_targets absolute] at total
    omega

/-- A source file, and another. -/
def pairFiles : FileSystem where
  tree := ⟨[([Utf8.encode "a.c".toList], .file (Utf8.encode "int x;\n".toList) 0o644),
    ([Utf8.encode "b.py".toList], .file (Utf8.encode "x = 1\n".toList) 0o644)]⟩
  workingDirectory := []

/-- The paths of two files, one of them in two spellings. -/
def repeatedPaths : List Path := ["/a.c", "/b.py", "/./a.c"].map Path.ofString

/-- Files that are listed more than once are reported once when none is skipped. -/
theorem reported_once_iff_repeated :
    (∀ path ∈ repeatedPaths, path.isAbsolute = true) ∧
      let reports := (Batch.processSelection ⟨.ofString "/", true, none⟩ .reliable pairFiles
        (ofPaths pairFiles ⟨.ofString "/", []⟩ repeatedPaths)).reports
      (∀ path ∈ styled repeatedPaths, mentions (reports.map (·.path)) path = 1) ∧
        fileCount repeatedPaths = 2 := by
  have absolute : ∀ path ∈ repeatedPaths, path.isAbsolute = true := by
    decide +kernel
  have clear : skipped pairFiles ⟨.ofString "/", []⟩ repeatedPaths = [] := by
    cbv
  obtain ⟨-, -, once, -⟩ := reported_once_iff absolute ⟨.ofString "/", true, none⟩ .reliable
    pairFiles ⟨.ofString "/", []⟩ ⟨0⟩
  refine ⟨absolute, once.mpr fun path listed => .inl ?_, by decide +kernel⟩
  rw [clear]
  rfl

/-- The exclusion of one file. -/
def oneExcluded : Exclusion where
  root := .ofString "/"
  patterns := [⟨"a.c", "a.c".toList.map .literal⟩]

/-- A file that is excluded and listed twice is reported twice and counted twice. -/
theorem reports_oneExcluded :
    let paths := ["/a.c", "/a.c"].map Path.ofString
    let reports := (Batch.processSelection ⟨.ofString "/", true, none⟩ .reliable pairFiles
      (ofPaths pairFiles oneExcluded paths)).reports
    Exclusion.ofSources (.ofString "/") ["a.c"] = .ok oneExcluded ∧
      (∀ path ∈ paths, path.isAbsolute = true) ∧ .ofString "/a.c" ∈ styled paths ∧
      mentions (reports.map (·.path)) (.ofString "/a.c") = 2 ∧
      (Summary.ofReports reports ⟨0⟩).total = 2 ∧ fileCount paths = 1 := by
  have candidate : Candidate.ofPath? (.ofString "/a.c") = some ⟨.ofString "/a.c", .block⟩ := by
    cbv
  have skip : SkipReason.of? pairFiles oneExcluded (.ofString "/a.c") =
      some (.excluded "a.c") := by
    cbv
  have selection : ofPaths pairFiles oneExcluded (["/a.c", "/a.c"].map Path.ofString) =
      ⟨[], List.replicate 2 (.because ⟨.ofString "/a.c", .block⟩ .ignored
        (SkipReason.excluded "a.c").message)⟩ := by
    unfold ofPaths
    simp [candidate, skip, dropRepeats, List.replicate]
  intro paths reports
  have told : reports = List.replicate 2 (.because ⟨.ofString "/a.c", .block⟩ .ignored
      (SkipReason.excluded "a.c").message) := by
    unfold reports paths
    rw [selection]
    rfl
  refine ⟨by cbv, by decide +kernel, by decide +kernel, ?_, ?_, by decide +kernel⟩
  · rw [told]
    decide +kernel
  · rw [told]
    rfl

end Selection

end LicenseHeader
