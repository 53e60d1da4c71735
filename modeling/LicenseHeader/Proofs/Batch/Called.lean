import LicenseHeader.Exclude.Exclusion
import LicenseHeader.Proofs.Path.Joined
import LicenseHeader.Proofs.Patch.Saved

/-!
# What a path is called

A path of a workspace has two names. One is listed: its components below the root, or the path
itself when these climb or there are none. The other one is matched with exclude patterns and stands
in the title of its patch: what is left of the path below the root as it was written, or the path
itself. Both lead to the path from the root, and they have the same components unless they climb
(`Path.shown_and_matched`).
-/

namespace LicenseHeader

namespace Batch

/-- A patch that is shown starts with the name of what is left of the path below the root. -/
theorem title_sendPatch {batch : Batch} {output : PatchOutput} (sends : batch.patches = some output)
    (shows : output.shown = true) (device : Device) (files : FileSystem) (path : Path)
    {old new : Text} (differ : old ≠ new) : ∃ patch,
      (batch.sendPatch device files path old new).2.head? = some (.patch patch) ∧
        "--- a/".toList ++ (path.belowOrSelf batch.root).display.toList ++ ['\n'] <+: patch := by
  refine ⟨PatchOutput.render (path.belowOrSelf batch.root) old new, ?_, ?_⟩
  · unfold sendPatch
    rw [sends]
    dsimp only
    rw [shows, if_pos rfl]
    rfl
  · have name : (path.belowOrSelf batch.root).display.toList =
        Utf8.decodeLossy (path.belowOrSelf batch.root).bytes := String.toList_ofList
    rw [name]
    exact @PatchOutput.Change.title_prefix_patch ⟨path.belowOrSelf batch.root, old, new⟩ differ

end Batch

namespace Path

variable {root path rest : Path}

/-- What is left of a path below an absolute directory are the components behind those of the
directory, all of them steps. -/
theorem steps_below (absolute : root.isAbsolute = true) (below : path.below? root = some rest) :
    root.components ≠ [] ∧ path.components = root.components ++ rest.components ∧
      ∀ component ∈ rest.components, IsStep component := by
  have filled := components_ne_nil absolute
  have whole := components_below below
  exact ⟨filled, whole, isStep_of_components filled whole⟩

/-- A path below an absolute directory is listed by its components there, unless these climb. -/
theorem shown_of_level (absolute : root.isAbsolute = true) (below : path.below? root = some rest)
    (level : rest.components.head? ≠ some .up) :
    path.shown (some root) = (ofComponents rest.components).display := by
  obtain ⟨filled, whole, -⟩ := steps_below absolute below
  exact (shows_shown root path).below rest.components filled whole level

/-- A path that does not lie below a directory, or that climbs there, is listed as it was
written. -/
theorem shown_of_climbing (absolute : root.isAbsolute = true) (also : path.isAbsolute = true)
    (climbs : ∀ rest, path.below? root = some rest → rest.components.head? = some .up) :
    path.shown (some root) = path.display := by
  refine (shows_shown root path).elsewhere absolute also fun components whole => ?_
  obtain ⟨rest, below⟩ :=
    Option.isSome_iff_exists.mp (isSome_below?_iff.mpr ⟨components, whole.symm⟩)
  have same := List.append_cancel_left (whole.symm.trans (components_below below))
  rw [same]
  exact climbs rest below

/-- An absolute path below an absolute root that does not climb there is listed by its components
below the root, and any other one as it was written. The name that is listed and the one that is
matched and stands in the title of a patch both lead to the path from the root, and they have the
same components unless the latter climbs. -/
theorem shown_and_matched (absolute : root.isAbsolute = true) (also : path.isAbsolute = true) :
    (∀ rest, path.below? root = some rest → rest.components.head? ≠ some .up →
        path.shown (some root) = (ofComponents rest.components).display ∧
          (ofComponents rest.components).components = rest.components) ∧
      ((∀ rest, path.below? root = some rest → rest.components.head? = some .up) →
        path.shown (some root) = path.display) ∧
      ∃ listed matched : Path,
        path.shown (some root) = listed.display ∧
          Leads root listed path ∧ Leads root matched path ∧
          (matched.components.head? ≠ some .up → listed.components = matched.components) ∧
          (∀ exclusion : Exclusion, exclusion.root = root → exclusion.verdict path =
            (exclusion.patterns.find? (Exclusion.matchesPath · matched)).map
              (.excluded ·.source)) ∧
          ∀ (batch : Batch) (output : PatchOutput), batch.root = root →
            batch.patches = some output → output.shown = true →
            ∀ (device : Device) (files : FileSystem) (old new : Text), old ≠ new →
              ∃ patch, (batch.sendPatch device files path old new).2.head? =
                  some (.patch patch) ∧
                "--- a/".toList ++ matched.display.toList ++ ['\n'] <+: patch := by
  refine ⟨fun rest below level => ?_, shown_of_climbing absolute also, ?_⟩
  · exact ⟨shown_of_level absolute below level,
      components_ofComponents (steps_below absolute below).2.2⟩
  · have used : (∀ exclusion : Exclusion, exclusion.root = root → exclusion.verdict path =
          (exclusion.patterns.find? (Exclusion.matchesPath · (path.belowOrSelf root))).map
            (.excluded ·.source)) ∧
        ∀ (batch : Batch) (output : PatchOutput), batch.root = root →
          batch.patches = some output → output.shown = true →
          ∀ (device : Device) (files : FileSystem) (old new : Text), old ≠ new →
            ∃ patch, (batch.sendPatch device files path old new).2.head? =
                some (.patch patch) ∧
              "--- a/".toList ++ (path.belowOrSelf root).display.toList ++ ['\n'] <+: patch := by
      refine ⟨?_, ?_⟩
      · rintro exclusion rfl
        rfl
      · rintro batch output rfl sends shows device files old new differ
        exact Batch.title_sendPatch sends shows device files path differ
    have leads := leads_belowOrSelf absolute also
    by_cases climbs : ∀ rest, path.below? root = some rest → rest.components.head? = some .up
    · refine ⟨path, path.belowOrSelf root, shown_of_climbing absolute also climbs,
        leads_self root also, leads, fun level => ?_, used⟩
      cases below : path.below? root with
      | none => rw [belowOrSelf_of_elsewhere below]
      | some rest =>
        rw [belowOrSelf_of_below below] at level
        exact absurd (climbs rest below) level
    · obtain ⟨rest, below, level⟩ : ∃ rest, path.below? root = some rest ∧
          rest.components.head? ≠ some .up := by
        simpa using climbs
      obtain ⟨-, whole, steps⟩ := steps_below absolute below
      have made := components_ofComponents steps
      refine ⟨ofComponents rest.components, path.belowOrSelf root,
        shown_of_level absolute below level, ?_, leads, fun _ => ?_, used⟩
      · rw [Leads, components_join_of_steps absolute (by rwa [made]), made, whole]
      · rw [made, belowOrSelf_of_below below]

/-- A path that is written with idle pieces is listed without them. -/
theorem shown_and_matched_idle :
    (Path.ofString "/w/./src").isAbsolute = true ∧
      (Path.ofString "/w//src/b/./a.c").isAbsolute = true ∧
      (Path.ofString "/w//src/b/./a.c").shown (some (.ofString "/w/./src")) = "b/a.c" := by
  have absolute : (Path.ofString "/w/./src").isAbsolute = true := by decide +kernel
  have also : (Path.ofString "/w//src/b/./a.c").isAbsolute = true := by decide +kernel
  have below : (Path.ofString "/w//src/b/./a.c").below? (.ofString "/w/./src") =
      some (.ofString "b/./a.c") := by
    decide +kernel
  have level : (Path.ofString "b/./a.c").components.head? ≠ some .up := by decide +kernel
  have printed : (ofComponents (Path.ofString "b/./a.c").components).display = "b/a.c" := by
    decide +kernel
  refine ⟨absolute, also, ?_⟩
  rw [← printed]
  exact ((shown_and_matched absolute also).1 _ below level).1

end Path

end LicenseHeader
