import LicenseHeader.Proofs.Batch.Mentions

/-!
# The order of the targets

A selection divides the listed paths that have a style: the targets are those that are not skipped,
each once, and the reports tell of the others (`Partitions`). The targets stand in the order of
their paths below the root, of which no two are the same, so that they do not depend on the order of
the listed paths (`partitions_ofPaths`).
-/

namespace LicenseHeader.Selection

/-- Whether a candidate stands before another below a root. -/
def before (root : Path) (c d : Candidate) : Prop :=
  (c.path.belowOrSelf root).le (d.path.belowOrSelf root) = true ∧
    (d.path.belowOrSelf root).le (c.path.belowOrSelf root) = false

/-- Whether a selection divides the listed paths that have a style. -/
structure Partitions (files : FileSystem) (exclusion : Exclusion) (paths : List Path)
    (selection : Selection) : Prop where
  /-- Each target stands before those that follow. -/
  increasing : selection.targets.Pairwise (before exclusion.root)
  /-- A target is a listed path that is not skipped, with its style. -/
  sound : ∀ c ∈ selection.targets, c.path ∈ paths ∧ Style.ofPath? c.path = some c.style ∧
    SkipReason.of? files exclusion c.path = none
  /-- A listed path with a style that is not skipped is a target in one of its spellings. -/
  complete : ∀ path ∈ paths, ∀ style, Style.ofPath? path = some style →
    SkipReason.of? files exclusion path = none →
      ∃ c ∈ selection.targets, c.path.components = path.components ∧ c.style = style
  /-- No two targets are spellings of one path. -/
  single : selection.targets.Pairwise fun c d => c.path.components ≠ d.path.components
  /-- The paths in the reports are the listed ones with a style that are skipped, in their order. -/
  reported : selection.ignored.map (·.path) = skipped files exclusion (styled paths)
  /-- A report gives the style of its path and the reason why it is skipped. -/
  reasons : ∀ report ∈ selection.ignored, ∃ style reason,
    Style.ofPath? report.path = some style ∧
      SkipReason.of? files exclusion report.path = some reason ∧
      report = .because ⟨report.path, style⟩ .ignored reason.message
  /-- A path without a style is no target and in no report. -/
  unstyled : ∀ path, Style.ofPath? path = none →
    (∀ c ∈ selection.targets, c.path.components ≠ path.components) ∧
      ∀ report ∈ selection.ignored, report.path.components ≠ path.components

variable {files : FileSystem} {exclusion : Exclusion} {paths : List Path}

/-- No candidate stands before one that stands before it. -/
theorem not_before {root : Path} {c d : Candidate} (first : before root c d)
    (second : before root d c) : False := by
  have absurdity := first.2.symm.trans second.1
  contradiction

/-- The targets stand in the order of their paths, none of them behind itself. -/
theorem increasing_targets (files : FileSystem) (exclusion : Exclusion)
    (absolute : ∀ path ∈ paths, path.isAbsolute = true) :
    (ofPaths files exclusion paths).targets.Pairwise (before exclusion.root) := by
  have sorted : (ofPaths files exclusion paths).targets.Pairwise
      fun c d => placed exclusion.root c d = true :=
    (List.pairwise_mergeSort (placed_trans _) (placed_total _) _).sublist (dropRepeats_sublist _ _)
  have apart := List.pairwise_map.mp (nodup_targets files exclusion absolute)
  refine (sorted.and apart).imp_of_mem fun here there both => ⟨both.1, ?_⟩
  obtain ⟨listed, style, -⟩ := of_mem_targets here
  obtain ⟨also, likewise, -⟩ := of_mem_targets there
  refine Bool.eq_false_iff.mpr fun back => both.2 ?_
  have same := (same_iff_placed (absolute _ listed) (absolute _ also) style likewise).mpr
    ⟨both.1, back⟩
  exact (Candidate.same_iff.mp same).1

/-- A selection divides the absolute paths that it is made from. -/
theorem partitions (absolute : ∀ path ∈ paths, path.isAbsolute = true) :
    Partitions files exclusion paths (ofPaths files exclusion paths) where
  increasing := increasing_targets files exclusion absolute
  sound c target := of_mem_targets target
  complete path listed style styled passed := exists_target listed styled passed
  single := List.pairwise_map.mp (nodup_targets files exclusion absolute)
  reported := paths_ignored
  reasons report member := by
    obtain ⟨c, reason, -, style, why, rfl⟩ := of_mem_ignored member
    exact ⟨c.style, reason, style, why, rfl⟩
  unstyled path plain := by
    constructor
    · intro c target components
      obtain ⟨-, style, -⟩ := of_mem_targets target
      rw [Style.ofPath?_congr components, plain] at style
      contradiction
    · intro report member components
      obtain ⟨c, reason, -, style, -, rfl⟩ := of_mem_ignored member
      change c.path.components = path.components at components
      rw [Style.ofPath?_congr components, plain] at style
      contradiction

/-- A path that is not skipped is a target if no other listed spelling of it could be one. -/
theorem mem_targets {c : Candidate} (listed : c.path ∈ paths)
    (style : Style.ofPath? c.path = some c.style)
    (passed : SkipReason.of? files exclusion c.path = none)
    (only : ∀ path ∈ paths, path.components = c.path.components →
      SkipReason.of? files exclusion path = none → path = c.path) :
    c ∈ (ofPaths files exclusion paths).targets := by
  obtain ⟨d, target, components, kind⟩ := exists_target listed style passed
  obtain ⟨also, -, accepted⟩ := of_mem_targets target
  have path := only d.path also components accepted
  have same : d = c := by
    cases d
    cases c
    cases path
    cases kind
    rfl
  exact same ▸ target

/-- Where each listed path has one spelling, the targets are the listed paths with a style that are
not skipped. -/
theorem mem_targets_iff {c : Candidate}
    (spelled : ∀ p ∈ paths, ∀ q ∈ paths, p.components = q.components → p = q) :
    c ∈ (ofPaths files exclusion paths).targets ↔ c.path ∈ paths ∧
      Style.ofPath? c.path = some c.style ∧ SkipReason.of? files exclusion c.path = none := by
  constructor
  · exact of_mem_targets
  · intro ⟨listed, style, passed⟩
    exact mem_targets listed style passed fun path also components _ =>
      spelled path also c.path listed components

/-- Of two spellings of a path the one that is listed first is the target, if neither is skipped. -/
theorem targets_pair {p q : Path} {style : Style} (styled : Style.ofPath? p = some style)
    (same : p.components = q.components)
    (level : (p.belowOrSelf exclusion.root).components =
      (q.belowOrSelf exclusion.root).components)
    (passed : SkipReason.of? files exclusion p = none)
    (also : SkipReason.of? files exclusion q = none) :
    (ofPaths files exclusion [p, q]).targets = [⟨p, style⟩] := by
  have first : Candidate.ofPath? p = some ⟨p, style⟩ :=
    Candidate.ofPath?_eq_some_iff.mpr ⟨rfl, styled⟩
  have second : Candidate.ofPath? q = some ⟨q, style⟩ :=
    Candidate.ofPath?_eq_some_iff.mpr ⟨rfl, Style.ofPath?_congr same ▸ styled⟩
  have sorted : [(⟨p, style⟩ : Candidate), ⟨q, style⟩].Pairwise
      fun c d => placed exclusion.root c d = true :=
    List.pairwise_pair.mpr (Path.le_of_components_eq level)
  have repeated : Candidate.same ⟨p, style⟩ ⟨q, style⟩ = true :=
    Candidate.same_iff.mpr ⟨same, rfl⟩
  unfold ofPaths
  simp only [List.filterMap_cons_some first, List.filterMap_cons_some second, List.filterMap_nil,
    List.filter_cons, passed, also, Option.isNone_none, if_true, List.filter_nil]
  rw [List.mergeSort_of_pairwise sorted]
  simp only [dropRepeats, repeated, if_true]

/-- The order of the listed paths does not matter where each of them has one spelling. -/
theorem targets_of_perm {order : List Path} (absolute : ∀ path ∈ paths, path.isAbsolute = true)
    (spelled : ∀ p ∈ paths, ∀ q ∈ paths, p.components = q.components → p = q)
    (reordered : order.Perm paths) :
    (ofPaths files exclusion order).targets = (ofPaths files exclusion paths).targets := by
  have absolute' : ∀ path ∈ order, path.isAbsolute = true :=
    fun path listed => absolute path (reordered.mem_iff.mp listed)
  have spelled' : ∀ p ∈ order, ∀ q ∈ order, p.components = q.components → p = q :=
    fun p here q there => spelled p (reordered.mem_iff.mp here) q (reordered.mem_iff.mp there)
  have same : ∀ c, c ∈ (ofPaths files exclusion order).targets ↔
      c ∈ (ofPaths files exclusion paths).targets := by
    intro c
    rw [mem_targets_iff spelled', mem_targets_iff spelled, reordered.mem_iff]
  have perm : (ofPaths files exclusion order).targets.Perm
      (ofPaths files exclusion paths).targets :=
    (List.perm_ext_iff_of_nodup (nodup_targets files exclusion absolute').of_map
      (nodup_targets files exclusion absolute).of_map).mpr same
  exact perm.eq_of_pairwise (fun c d _ _ first second => (not_before first second).elim)
    (increasing_targets files exclusion absolute') (increasing_targets files exclusion absolute)

/-- Selecting divides the listed paths that have a style, and where each of them has one spelling
the targets do not depend on the order in which they are listed. -/
theorem partitions_ofPaths (absolute : ∀ path ∈ paths, path.isAbsolute = true) (files : FileSystem)
    (exclusion : Exclusion) :
    Partitions files exclusion paths (ofPaths files exclusion paths) ∧
      ∀ order : List Path, order.Perm paths →
        (∀ p ∈ paths, ∀ q ∈ paths, p.components = q.components → p = q) →
        (ofPaths files exclusion order).targets = (ofPaths files exclusion paths).targets :=
  ⟨partitions absolute, fun _ reordered spelled => targets_of_perm absolute spelled reordered⟩

/-- Two source files listed in both orders, one of them twice, have the same targets. -/
theorem partitions_ofPaths_listed :
    let paths := ["/b.py", "/a.c", "/b.py"].map Path.ofString
    let order := ["/a.c", "/b.py", "/b.py"].map Path.ofString
    (∀ path ∈ paths, path.isAbsolute = true) ∧ order.Perm paths ∧
      (∀ p ∈ paths, ∀ q ∈ paths, p.components = q.components → p = q) ∧
      (∃ c ∈ (ofPaths pairFiles oneExcluded paths).targets,
        c.path.components = (Path.ofString "/b.py").components ∧ c.style = .sharp) ∧
      (ofPaths pairFiles oneExcluded paths).ignored.map (·.path) = [.ofString "/a.c"] ∧
      (ofPaths pairFiles oneExcluded order).targets =
        (ofPaths pairFiles oneExcluded paths).targets := by
  intro paths order
  have absolute : ∀ path ∈ paths, path.isAbsolute = true := by
    decide +kernel
  have reordered : order.Perm paths := by
    decide +kernel
  have spelled : ∀ p ∈ paths, ∀ q ∈ paths, p.components = q.components → p = q := by
    decide +kernel
  obtain ⟨divided, steady⟩ := partitions_ofPaths absolute pairFiles oneExcluded
  refine ⟨absolute, reordered, spelled, ?_, ?_, steady order reordered spelled⟩
  · exact divided.complete (.ofString "/b.py") List.mem_cons_self .sharp (by cbv) (by cbv)
  · rw [divided.reported]
    cbv

end LicenseHeader.Selection
