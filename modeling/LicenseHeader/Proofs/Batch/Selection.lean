import LicenseHeader.Batch.Selection
import LicenseHeader.Proofs.File.Resolve

/-!
# What is selected

Every target of a selection and every report of a skipped file comes from a listed path with a
style, and a target names a regular file. The other way round every listed path with a style is a
target, in some spelling, or skipped.
-/

namespace LicenseHeader

/-- What is dropped from a list is the same as something that is kept. -/
theorem exists_mem_dropRepeats {α : Type} {same : α → α → Bool}
    (equivalence : Equivalence fun x y => same x y = true) {list : List α} {x : α}
    (member : x ∈ list) : ∃ y ∈ dropRepeats same list, same x y = true := by
  fun_induction dropRepeats same list with
  | case1 => contradiction
  | case2 first more nothing ih =>
    rcases List.mem_cons.mp member with rfl | later
    · exact ⟨x, List.mem_cons_self, equivalence.refl x⟩
    · rw [nothing] at ih
      obtain ⟨y, absurdity, -⟩ := ih later
      contradiction
  | case3 first more second rest kept repeated ih =>
    rcases List.mem_cons.mp member with rfl | later
    · exact ⟨x, List.mem_cons_self, equivalence.refl x⟩
    · rw [kept] at ih
      obtain ⟨y, there, like⟩ := ih later
      rcases List.mem_cons.mp there with rfl | behind
      · exact ⟨first, List.mem_cons_self, equivalence.trans like (equivalence.symm repeated)⟩
      · exact ⟨y, List.mem_cons_of_mem first behind, like⟩
  | case4 first more second rest kept distinct ih =>
    rcases List.mem_cons.mp member with rfl | later
    · exact ⟨x, List.mem_cons_self, equivalence.refl x⟩
    · rw [kept] at ih
      obtain ⟨y, there, like⟩ := ih later
      exact ⟨y, List.mem_cons_of_mem first there, like⟩

/-- The first element of a list is kept. -/
theorem head?_dropRepeats {α : Type} (same : α → α → Bool) (list : List α) :
    (dropRepeats same list).head? = list.head? := by
  cases list with
  | nil => rfl
  | cons first more =>
    unfold dropRepeats
    split
    · rfl
    · split <;> rfl

/-- No two of the elements that are kept are the same exactly when elements of the list that are the
same have none between them that is not. -/
theorem pairwise_dropRepeats_iff {α : Type} {same : α → α → Bool}
    (equivalence : Equivalence fun x y => same x y = true) (list : List α) :
    ((dropRepeats same list).Pairwise fun x y => same x y = false) ↔
      ∀ x y z, [x, y, z].Sublist list → same x z = true → same x y = true := by
  fun_induction dropRepeats same list with
  | case1 => simp
  | case2 first more nothing ih =>
    have head := head?_dropRepeats same more
    rw [nothing] at head
    rw [List.head?_eq_none_iff.mp head.symm]
    refine iff_of_true (List.pairwise_singleton _ first) fun x y z inside => ?_
    exact absurd inside.length_le (by simp)
  | case3 first more second rest kept repeated ih =>
    obtain ⟨tail, rfl⟩ : ∃ tail, more = second :: tail := by
      have head := head?_dropRepeats same more
      rw [kept] at head
      exact List.head?_eq_some_iff.mp head.symm
    rw [kept, List.pairwise_cons] at ih
    -- The first element takes the place of the second, which is the same.
    have swapped : (∀ z ∈ rest, same first z = false) ↔ ∀ z ∈ rest, same second z = false := by
      refine forall₂_congr fun z _ => ?_
      rw [← Bool.not_eq_true, ← Bool.not_eq_true]
      exact not_congr ⟨equivalence.trans (equivalence.symm repeated), equivalence.trans repeated⟩
    rw [List.pairwise_cons, swapped, ih]
    constructor
    · intro between x y z inside like
      cases inside with
      | cons _ later => exact between x y z later like
      | cons_cons _ later =>
        cases later with
        | cons _ behind =>
          have second_z := equivalence.trans (equivalence.symm repeated) like
          exact equivalence.trans repeated (between second y z (behind.cons_cons second) second_z)
        | cons_cons _ behind => exact repeated
    · intro between x y z inside
      exact between x y z (inside.cons first)
  | case4 first more second rest kept distinct ih =>
    have later : (second :: rest).Sublist more := kept ▸ dropRepeats_sublist same more
    rw [kept] at ih
    rw [List.pairwise_cons, ih]
    constructor
    · rintro ⟨apart, between⟩ x y z inside like
      cases inside with
      | cons _ behind => exact between x y z behind like
      | cons_cons _ behind =>
        obtain ⟨w, there, stands⟩ := exists_mem_dropRepeats equivalence
          (behind.mem (List.mem_cons_of_mem y List.mem_cons_self))
        rw [kept] at there
        have other := apart w there
        rw [equivalence.trans like stands] at other
        contradiction
    · intro between
      refine ⟨fun z member => Bool.eq_false_iff.mpr fun like => ?_,
        fun x y z inside => between x y z (inside.cons first)⟩
      rcases List.mem_cons.mp member with rfl | behind
      · exact distinct like
      · have pair := ((List.singleton_sublist.mpr behind).cons_cons second).trans later
        exact distinct (between first second z (pair.cons_cons first) like)

/-- Candidates are the same when their components and their styles are. -/
theorem Candidate.same_iff {c d : Candidate} :
    c.same d = true ↔ c.path.components = d.path.components ∧ c.style = d.style := by
  unfold Candidate.same Path.same
  rw [Bool.and_eq_true, decide_eq_true_eq, decide_eq_true_eq]

/-- Being the same is an equivalence. -/
theorem Candidate.equivalence_same : Equivalence fun c d : Candidate => c.same d = true where
  refl c := Candidate.same_iff.mpr ⟨rfl, rfl⟩
  symm like := by
    rw [Candidate.same_iff] at like ⊢
    exact ⟨like.1.symm, like.2.symm⟩
  trans first second := by
    rw [Candidate.same_iff] at first second ⊢
    exact ⟨first.1.trans second.1, first.2.trans second.2⟩

/-- A candidate is its path and the style of its path. -/
theorem Candidate.ofPath?_eq_some_iff {path : Path} {c : Candidate} :
    Candidate.ofPath? path = some c ↔ c.path = path ∧ Style.ofPath? path = some c.style := by
  unfold Candidate.ofPath?
  cases Style.ofPath? path with
  | none => simp
  | some style =>
    simp only [Option.map_some, Option.some.injEq]
    constructor
    · intro same
      rw [← same]
      exact ⟨rfl, rfl⟩
    · intro ⟨here, same⟩
      rw [← here, same]

/-- A path that is not skipped names a regular file. -/
theorem SkipReason.exists_file {files : FileSystem} {exclusion : Exclusion} {path : Path}
    (chosen : SkipReason.of? files exclusion path = none) :
    ∃ goal content mode, files.resolve .kept path = .ok goal ∧
      files.tree.get? goal = some (.file content mode) := by
  unfold SkipReason.of? SkipReason.ofKind? at chosen
  cases looked : files.lookAtLink path with
  | error fault =>
    rw [looked] at chosen
    contradiction
  | ok entry =>
    rw [looked] at chosen
    cases entry with
    | file content mode =>
      obtain ⟨goal, found, there⟩ := FileSystem.lookAtLink_eq_ok_iff.mp looked
      exact ⟨goal, content, mode, found, there⟩
    | directory => contradiction
    | link target => contradiction

namespace Selection

variable {files : FileSystem} {exclusion : Exclusion} {paths : List Path}

/-- Targets are listed, have their style and are not skipped. -/
theorem of_mem_targets {c : Candidate} (member : c ∈ (ofPaths files exclusion paths).targets) :
    c.path ∈ paths ∧ Style.ofPath? c.path = some c.style ∧
      SkipReason.of? files exclusion c.path = none := by
  have sorted := (dropRepeats_sublist Candidate.same _).mem member
  obtain ⟨listed, chosen⟩ := List.mem_filter.mp (List.mem_mergeSort.mp sorted)
  obtain ⟨path, present, made⟩ := List.mem_filterMap.mp listed
  obtain ⟨rfl, style⟩ := Candidate.ofPath?_eq_some_iff.mp made
  exact ⟨present, style, Option.isNone_iff_eq_none.mp chosen⟩

/-- A listed path with a style that is not skipped is a target in some spelling. -/
theorem exists_target {path : Path} {style : Style} (listed : path ∈ paths)
    (styled : Style.ofPath? path = some style)
    (chosen : SkipReason.of? files exclusion path = none) :
    ∃ c ∈ (ofPaths files exclusion paths).targets,
      c.path.components = path.components ∧ c.style = style := by
  have made : Candidate.ofPath? path = some ⟨path, style⟩ :=
    Candidate.ofPath?_eq_some_iff.mpr ⟨rfl, styled⟩
  have candidate := List.mem_filterMap.mpr ⟨path, listed, made⟩
  have accepted : (⟨path, style⟩ : Candidate) ∈ (paths.filterMap Candidate.ofPath?).filter
      fun c => (SkipReason.of? files exclusion c.path).isNone := by
    apply List.mem_filter.mpr
    exact ⟨candidate, Option.isNone_iff_eq_none.mpr chosen⟩
  have kept : ∃ c ∈ (ofPaths files exclusion paths).targets,
      (⟨path, style⟩ : Candidate).same c = true :=
    exists_mem_dropRepeats Candidate.equivalence_same (List.mem_mergeSort.mpr accepted)
  obtain ⟨c, target, like⟩ := kept
  obtain ⟨components, style⟩ := Candidate.same_iff.mp like
  exact ⟨c, target, components.symm, style.symm⟩

/-- A listed path with a style that is skipped is reported so. -/
theorem mem_ignored {path : Path} {style : Style} (listed : path ∈ paths)
    (styled : Style.ofPath? path = some style) {reason : SkipReason}
    (skipped : SkipReason.of? files exclusion path = some reason) :
    .because ⟨path, style⟩ .ignored reason.message ∈ (ofPaths files exclusion paths).ignored := by
  have made : Candidate.ofPath? path = some ⟨path, style⟩ :=
    Candidate.ofPath?_eq_some_iff.mpr ⟨rfl, styled⟩
  have candidate := List.mem_filterMap.mpr ⟨path, listed, made⟩
  exact List.mem_filterMap.mpr ⟨⟨path, style⟩, candidate, by rw [skipped]; rfl⟩

/-- Reports of skipped files are of listed paths with a style, and give the reason. -/
theorem of_mem_ignored {report : Report}
    (member : report ∈ (ofPaths files exclusion paths).ignored) :
    ∃ c : Candidate, ∃ reason, c.path ∈ paths ∧ Style.ofPath? c.path = some c.style ∧
      SkipReason.of? files exclusion c.path = some reason ∧
      report = .because c .ignored reason.message := by
  obtain ⟨c, listed, skipped⟩ := List.mem_filterMap.mp member
  obtain ⟨path, present, made⟩ := List.mem_filterMap.mp listed
  obtain ⟨rfl, style⟩ := Candidate.ofPath?_eq_some_iff.mp made
  obtain ⟨reason, why, told⟩ := Option.map_eq_some_iff.mp skipped
  exact ⟨c, reason, present, style, why, told.symm⟩

end Selection

end LicenseHeader
