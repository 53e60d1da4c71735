import LicenseHeader.Proofs.Path.Below
import Mathlib.Data.List.Basic

/-!
# The order of paths

Paths stand in a linear order of their components (`Path.le_antisymm`). What is left of a path below
a directory has the components that follow those of the directory, so that another path may be what
is left of it (`Path.components_belowOrSelf_eq_iff`). Absolute paths leave the same components
exactly when they have the same themselves (`Path.components_belowOrSelf_iff`), and sorting by what
is left brings all their spellings together.
-/

namespace LicenseHeader

/-- A component is told by its place in the order. -/
theorem Component.key_injective : Function.Injective Component.key := by
  intro first second same
  cases first <;> cases second <;> simp [Component.key] at same ⊢
  exact List.map_injective_iff.mpr (fun _ _ bytes => UInt8.toNat_inj.mp bytes) same

namespace Path

/-- One of two paths stands before the other or has its components. -/
theorem le_total (p q : Path) : (p.le q || q.le p) = true := by
  have swapped : compare (q.components.map Component.key) (p.components.map Component.key) =
      (compare (p.components.map Component.key) (q.components.map Component.key)).swap :=
    Std.OrientedCmp.eq_swap
  unfold Path.le
  rw [swapped]
  cases compare (p.components.map Component.key) (q.components.map Component.key) <;> rfl

/-- What stands before a path stands before what comes after it. -/
theorem le_trans (p q r : Path) (first : p.le q = true) (second : q.le r = true) :
    p.le r = true :=
  Std.TransCmp.isLE_trans first second

/-- Paths that stand before each other have the same components. -/
theorem le_antisymm {p q : Path} (first : p.le q = true) (second : q.le p = true) :
    p.components = q.components := by
  have same : compare (p.components.map Component.key) (q.components.map Component.key) = .eq :=
    Std.OrientedCmp.isLE_antisymm first second
  exact List.map_injective_iff.mpr Component.key_injective (Std.LawfulEqCmp.eq_of_compare same)

/-- A path stands before those with its components. -/
theorem le_of_components_eq {p q : Path} (same : p.components = q.components) :
    p.le q = true := by
  unfold Path.le
  rw [same]
  exact Std.ReflCmp.isLE_rfl

section Left

variable {path root other : Path}

/-- Whether a path leaves below a directory what another path is, which does not lie there. -/
def Shadows (root path other : Path) : Prop :=
  path.components = root.components ++ other.components ∧
    ¬ root.components <+: other.components

/-- A path lies below a directory and leaves the components behind those of the directory, or it
lies elsewhere and is left as it is. -/
theorem belowOrSelf_cases (root path : Path) :
    path.components = root.components ++ (path.belowOrSelf root).components ∨
      ¬ root.components <+: path.components ∧ path.belowOrSelf root = path := by
  cases below : path.below? root with
  | some rest => exact .inl (belowOrSelf_of_below below ▸ components_below below)
  | none =>
    refine .inr ⟨fun leads => ?_, belowOrSelf_of_elsewhere below⟩
    have lies := isSome_below?_iff.mpr leads
    rw [below] at lies
    contradiction

/-- Two paths leave the same components below a directory exactly when they have the same, or when
one of them leaves what the other is. -/
theorem components_belowOrSelf_eq_iff (root path other : Path) :
    (path.belowOrSelf root).components = (other.belowOrSelf root).components ↔
      path.components = other.components ∨ Shadows root path other ∨ Shadows root other path := by
  have lies {p : Path} {rest : List Component} (whole : p.components = root.components ++ rest) :
      root.components <+: p.components := ⟨rest, whole.symm⟩
  rcases belowOrSelf_cases root path with below | ⟨elsewhere, self⟩
  · rcases belowOrSelf_cases root other with also | ⟨apart, kept⟩
    · constructor
      · intro same
        exact .inl (below.trans (same ▸ also.symm))
      · rintro (same | shadows | shadows)
        · exact List.append_cancel_left (below.symm.trans (same.trans also))
        · exact absurd (lies also) shadows.2
        · exact absurd (lies below) shadows.2
    · rw [kept]
      constructor
      · intro same
        exact .inr (.inl ⟨same ▸ below, apart⟩)
      · rintro (same | shadows | shadows)
        · exact absurd (same ▸ lies below) apart
        · exact List.append_cancel_left (below.symm.trans shadows.1)
        · exact absurd (lies shadows.1) apart
  · rw [self]
    rcases belowOrSelf_cases root other with also | ⟨apart, kept⟩
    · constructor
      · intro same
        exact .inr (.inr ⟨same ▸ also, elsewhere⟩)
      · rintro (same | shadows | shadows)
        · exact absurd (same ▸ lies also) elsewhere
        · exact absurd (lies shadows.1) elsewhere
        · exact List.append_cancel_left (shadows.1.symm.trans also)
    · rw [kept]
      constructor
      · exact .inl
      · rintro (same | shadows | shadows)
        · exact same
        · exact absurd (lies shadows.1) elsewhere
        · exact absurd (lies shadows.1) apart

/-- What is left of an absolute path below a directory is no absolute path that does not lie below
it. -/
theorem not_shadows (absolute : path.isAbsolute = true) (also : other.isAbsolute = true) :
    ¬ Shadows root path other := by
  rintro ⟨whole, apart⟩
  rw [components_of_isAbsolute absolute, components_of_isAbsolute also] at whole
  cases start : root.components with
  | nil =>
    rw [start] at apart
    exact apart List.nil_prefix
  | cons first more =>
    rw [start, List.cons_append] at whole
    have tail := (List.cons.inj whole).2
    exact root_not_mem path.parts.body
      (tail ▸ List.mem_append_right more List.mem_cons_self)

/-- Absolute paths leave the same components below a directory exactly when they have the same
components. -/
theorem components_belowOrSelf_iff (root : Path) (absolute : path.isAbsolute = true)
    (also : other.isAbsolute = true) :
    (path.belowOrSelf root).components = (other.belowOrSelf root).components ↔
      path.components = other.components := by
  rw [components_belowOrSelf_eq_iff, or_iff_left]
  rintro (shadows | shadows)
  · exact not_shadows absolute also shadows
  · exact not_shadows also absolute shadows

end Left

end Path

end LicenseHeader
