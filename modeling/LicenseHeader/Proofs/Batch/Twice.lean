import LicenseHeader.Proofs.Batch.Mentions

/-!
# Targets that are the same

Targets are sorted by what is left of their paths below the root, and then each is dropped that is
the same as the one before it. A path below the root and another one that reads like what is left of
it have one place in the order, where they stand as they were listed. So a path is a target twice
exactly when such another one is listed between two of its mentions
(`Selection.distinct_targets_iff`).
-/

namespace LicenseHeader

/-- A path that leaves what another is has other components than this. -/
theorem Path.Shadows.components_ne {root path other : Path}
    (shadows : Path.Shadows root path other) : path.components ≠ other.components := by
  intro same
  exact shadows.2 ⟨other.components, shadows.1.symm.trans same⟩

namespace Selection

variable {files : FileSystem} {exclusion : Exclusion} {paths : List Path}

/-- The accepted candidates have the listed paths with a style that are not skipped. -/
theorem paths_accepted : (accepted files exclusion paths).map (·.path) =
    chosen files exclusion (styled paths) := by
  unfold accepted chosen styled
  induction paths with
  | nil => rfl
  | cons path more ih =>
    cases style : Style.ofPath? path with
    | none => simp [Candidate.ofPath?, style, ih]
    | some found =>
      cases skip : SkipReason.of? files exclusion path with
      | none => simp [Candidate.ofPath?, style, skip, ih]
      | some reason => simp [Candidate.ofPath?, style, skip, ih]

/-- Accepted candidates whose paths have the same components are the same. -/
theorem same_of_accepted {c d : Candidate} (here : c ∈ accepted files exclusion paths)
    (there : d ∈ accepted files exclusion paths) (same : c.path.components = d.path.components) :
    c.same d = true := by
  have style := (of_mem_accepted here).2
  rw [Style.ofPath?_congr same, (of_mem_accepted there).2] at style
  exact Candidate.same_iff.mpr ⟨same, (Option.some.inj style).symm⟩

/-- No two targets are the same exactly when no mention of a path lies between two of another which
leaves what it is below the root, or which it leaves. -/
theorem pairwise_targets_iff_not_shadows (files : FileSystem) (exclusion : Exclusion)
    (paths : List Path) :
    ((ofPaths files exclusion paths).targets.Pairwise fun c d => c.same d = false) ↔
      ∀ p q r, [p, q, r].Sublist (chosen files exclusion (styled paths)) →
        p.components = r.components →
          ¬ Path.Shadows exclusion.root p q ∧ ¬ Path.Shadows exclusion.root q p := by
  rw [pairwise_targets_iff, ← paths_accepted]
  constructor
  · intro between p q r inside same
    obtain ⟨listed, sub, whole⟩ := List.sublist_map_iff.mp inside
    have three := (congrArg List.length whole).symm
    obtain ⟨c, d, e, rfl⟩ := List.length_eq_three.mp (by simpa using three)
    obtain ⟨rfl, rfl, rfl⟩ : p = c.path ∧ q = d.path ∧ r = e.path := by simpa using whole
    have like := same_of_accepted (sub.mem (by simp)) (sub.mem (by simp)) same
    have level := Path.components_belowOrSelf_eq_iff exclusion.root c.path d.path
    constructor
    · intro shadows
      have also := between c d e sub like (level.mpr (.inr (.inl shadows)))
      exact shadows.components_ne (Candidate.same_iff.mp also).1
    · intro shadows
      have also := between c d e sub like (level.mpr (.inr (.inr shadows)))
      exact shadows.components_ne (Candidate.same_iff.mp also).1.symm
  · intro apart c d e sub like level
    have components := (Candidate.same_iff.mp like).1
    obtain ⟨first, second⟩ := apart c.path d.path e.path (sub.map Candidate.path) components
    rcases (Path.components_belowOrSelf_eq_iff _ _ _).mp level with same | shadows | shadows
    · exact same_of_accepted (sub.mem (by simp)) (sub.mem (by simp)) same
    · exact absurd shadows first
    · exact absurd shadows second

/-- No two targets have the same components and style exactly when no mention of a path lies between
two of another which leaves what it is below the root, or which it leaves. So it is for absolute
paths, in any order and number. -/
theorem distinct_targets_iff (files : FileSystem) (exclusion : Exclusion) (paths : List Path) :
    ((ofPaths files exclusion paths).targets.Pairwise (fun c d =>
        ¬ (c.path.components = d.path.components ∧ c.style = d.style)) ↔
      ∀ p q r, [p, q, r].Sublist (chosen files exclusion (styled paths)) →
        p.components = r.components →
          ¬ Path.Shadows exclusion.root p q ∧ ¬ Path.Shadows exclusion.root q p) ∧
    ((∀ path ∈ paths, path.isAbsolute = true) →
      (ofPaths files exclusion paths).targets.Pairwise fun c d =>
        ¬ (c.path.components = d.path.components ∧ c.style = d.style)) := by
  have exactly := pairwise_targets_iff_not_shadows files exclusion paths
  simp only [← Bool.not_eq_true, Candidate.same_iff] at exactly
  refine ⟨exactly, fun absolute => exactly.mpr fun p q r inside _ => ?_⟩
  have listed (path : Path) (member : path ∈ [p, q, r]) : path.isAbsolute = true :=
    absolute path (List.mem_filter.mp (List.mem_filter.mp (inside.mem member)).1).1
  have first := listed p (by simp)
  have second := listed q (by simp)
  exact ⟨Path.not_shadows first second, Path.not_shadows second first⟩

/-- The paths of a file in the working directory: its name, its whole path, and its name again. -/
def interleavedPaths : List Path := ["a.c", "/a.c", "a.c"].map Path.ofString

/-- A file is a target three times when it is listed by its name, by its whole path and by its name
again, and the first and the last of the targets are the same. -/
theorem targets_interleaved :
    (ofPaths pairFiles ⟨.ofString "/", []⟩ interleavedPaths).targets =
        interleavedPaths.map (⟨·, .block⟩) ∧
      ¬ (ofPaths pairFiles ⟨.ofString "/", []⟩ interleavedPaths).targets.Pairwise fun c d =>
        ¬ (c.path.components = d.path.components ∧ c.style = d.style) := by
  have whole : (ofPaths pairFiles ⟨.ofString "/", []⟩ interleavedPaths).targets =
      interleavedPaths.map (⟨·, .block⟩) := by
    cbv
  refine ⟨whole, fun apart => ?_⟩
  rw [whole] at apart
  exact (List.pairwise_cons.mp apart).1 ⟨.ofString "a.c", .block⟩ (by decide) ⟨rfl, rfl⟩

/-- The paths of that file with the mentions of its name side by side. -/
def groupedPaths : List Path := ["a.c", "a.c", "/a.c"].map Path.ofString

/-- No two targets are the same when the mentions of a name stand side by side, and none when all
paths are absolute. -/
theorem distinct_targets_iff_grouped :
    (∀ path ∈ repeatedPaths, path.isAbsolute = true) ∧
      ((ofPaths pairFiles ⟨.ofString "/", []⟩ groupedPaths).targets.Pairwise fun c d =>
        ¬ (c.path.components = d.path.components ∧ c.style = d.style)) ∧
      (ofPaths pairFiles ⟨.ofString "/", []⟩ repeatedPaths).targets.Pairwise fun c d =>
        ¬ (c.path.components = d.path.components ∧ c.style = d.style) := by
  have absolute : ∀ path ∈ repeatedPaths, path.isAbsolute = true := by
    decide +kernel
  have accepted : chosen pairFiles ⟨.ofString "/", []⟩ (styled groupedPaths) = groupedPaths := by
    cbv
  refine ⟨absolute, ?_, (distinct_targets_iff pairFiles ⟨.ofString "/", []⟩ _).2 absolute⟩
  refine (distinct_targets_iff pairFiles ⟨.ofString "/", []⟩ groupedPaths).1.mpr ?_
  intro p q r inside same
  rw [accepted] at inside
  obtain ⟨rfl, rfl, rfl⟩ : p = .ofString "a.c" ∧ q = .ofString "a.c" ∧ r = .ofString "/a.c" := by
    simpa [groupedPaths] using inside.eq_of_length rfl
  exact absurd same (by decide +kernel)

end Selection

end LicenseHeader
