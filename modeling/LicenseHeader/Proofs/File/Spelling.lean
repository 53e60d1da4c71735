import LicenseHeader.Proofs.File.Sibling

/-!
# Spellings of a path

Paths with the same components differ only in pieces that say nothing. They lead to the same
location when neither leads to a directory (`FileSystem.resolve_eq_of_components`).
-/

namespace LicenseHeader

namespace Path

/-- The pieces that say something. -/
def saying (pieces : List Bytes) : List Bytes := pieces.filter (!isIdle ·)

/-- The piece that writes a component, if it is not written by the start of a path. -/
def pieceOf? : Component → Option Bytes
  | .root => none
  | .here => none
  | .up => some Component.up.bytes
  | .entry name => some name

/-- The pieces that say something are those of their components. -/
theorem filterMap_pieceOf? (body : List Bytes) :
    (body.filterMap componentOf?).filterMap pieceOf? = saying body := by
  have step (piece : Bytes) : (componentOf? piece).bind pieceOf? =
      if (!isIdle piece) = true then some piece else none := by
    unfold componentOf?
    cases idle : isIdle piece with
    | true => rfl
    | false =>
      by_cases climbs : piece = Component.up.bytes
      · simp [climbs, pieceOf?]
      · simp [climbs, pieceOf?]
  rw [List.filterMap_filterMap]
  simp only [step]
  unfold saying
  rw [← List.filterMap_eq_filter]
  rfl

/-- Pieces that are empty say nothing. -/
theorem saying_filter (pieces : List Bytes) : saying (pieces.filter (· ≠ [])) = saying pieces := by
  unfold saying
  rw [List.filter_filter]
  congr 1
  funext piece
  by_cases empty : piece = [] <;> simp [empty, isIdle]

/-- The pieces of a path that say something are those of its components. -/
theorem saying_pieces (path : Path) :
    saying (pieces path.bytes) = path.components.filterMap pieceOf? := by
  have start : saying (path.parts.start.toList.flatMap (said ·.bytes)) =
      path.parts.start.toList.filterMap pieceOf? := by
    cases first : path.parts.start with
    | none => rfl
    | some component =>
      cases component with
      | root => rfl
      | here => rfl
      | up => rfl
      | entry name => exact absurd first ((parts_of_pieces path).1 name)
  calc
    saying (pieces path.bytes) = saying path.parts.said := by
      rw [said_parts]
      exact (saying_filter _).symm
    _ = saying (path.parts.start.toList.flatMap (said ·.bytes)) ++ saying path.parts.body := by
      rw [← saying_filter path.parts.body]
      exact List.filter_append _ _
    _ = path.components.filterMap pieceOf? := by
      rw [start, ← filterMap_pieceOf?, ← List.filterMap_append]
      rfl

/-- A path is absolute exactly when the root is one of its components. -/
theorem isAbsolute_iff_root (path : Path) :
    path.isAbsolute = true ↔ Component.root ∈ path.components := by
  have body := root_not_mem path.parts.body
  unfold isAbsolute components
  rw [decide_eq_true_eq, List.mem_append, Option.mem_toList]
  exact ⟨.inl, fun either => either.resolve_right body⟩

end Path

namespace FileSystem

/-- What the names of a path say is what its pieces say. -/
theorem saying_names (path : Path) :
    Path.saying (names path) = path.components.filterMap Path.pieceOf? := by
  obtain ⟨piece, last⟩ := Path.exists_last path.bytes
  obtain ⟨front, cut⟩ := List.getLast?_eq_some_iff.mp last
  have whole : names path = front.filter (· ≠ []) ++ [piece] := by
    unfold names
    simp [cut]
  have loud := Path.saying_filter front
  rw [← Path.saying_pieces, whole, cut]
  unfold Path.saying at loud ⊢
  rw [List.filter_append, List.filter_append, loud]

section Follows

variable {tree : FileTree} {links : Nat} {directory goal : Location} {names other : List Bytes}
  {name : Bytes}

/-- Whether the last of names says something, if there is one. -/
def EndsSaying (names : List Bytes) : Prop := ∀ name ∈ names.getLast?, ¬ Path.isIdle name = true

/-- The names after the first end as all do. -/
theorem EndsSaying.tail (ends : EndsSaying (name :: names)) : EndsSaying names := by
  cases names with
  | nil => simp [EndsSaying]
  | cons second more =>
    intro last final
    exact ends last (by rwa [List.getLast?_cons_cons])

/-- Names behind others end as they do. -/
theorem EndsSaying.append (ends : EndsSaying names) (filled : names ≠ []) (front : List Bytes) :
    EndsSaying (front ++ names) := by
  intro last final
  rw [Option.mem_def, List.getLast?_append, List.getLast?_eq_some_getLast filled] at final
  exact ends last (List.getLast?_eq_some_getLast filled ▸ final)

/-- The names behind others end as all do. -/
theorem EndsSaying.of_append {front : List Bytes} (ends : EndsSaying (front ++ names)) :
    EndsSaying names := by
  induction front with
  | nil => exact ends
  | cons first more ih => exact ih ends.tail

/-- Names that end in one which says something and yet say nothing are none. -/
theorem eq_nil_of_saying (ends : EndsSaying names) (silent : Path.saying names = []) :
    names = [] := by
  cases last : names.getLast? with
  | none => exact List.getLast?_eq_none_iff.mp last
  | some name =>
    have idle := List.filter_eq_nil_iff.mp silent name (List.mem_of_getLast? last)
    exact absurd (by simpa using idle) (ends name last)

/-- Names that say nothing stay in the directory. -/
theorem Follows.idles {idles : List Bytes} (here : tree.get? directory = some .directory)
    (nothing : ∀ idle ∈ idles, Path.isIdle idle = true)
    (leads : Follows tree .kept links directory names goal) :
    Follows tree .kept links directory (idles ++ names) goal := by
  induction idles with
  | nil => exact leads
  | cons idle more ih =>
    obtain ⟨first, rest⟩ := List.forall_mem_cons.mp nothing
    exact .idle here (by simp [MayCreate]) first (ih rest)

/-- Names of which the first says something are in other names that say the same, behind some that
say nothing; and the others end as they did behind this name. -/
theorem exists_of_saying_cons {rest : List Bytes} (speaks : ¬ Path.isIdle name = true)
    (same : Path.saying other = Path.saying (name :: rest)) (ends : EndsSaying other) :
    ∃ idles more, other = idles ++ name :: more ∧ (∀ idle ∈ idles, Path.isIdle idle = true) ∧
      Path.saying more = Path.saying rest ∧ EndsSaying more := by
  unfold Path.saying at same ⊢
  rw [List.filter_cons_of_pos (by simpa using speaks)] at same
  obtain ⟨idles, more, rfl, nothing, -, behind⟩ := List.filter_eq_cons_iff.mp same
  exact ⟨idles, more, rfl, fun idle member => by simpa using nothing idle member, behind,
    ends.of_append.tail⟩

/-- Names that say the same lead to the same location, when both end in one that says something. -/
theorem Follows.of_saying (leads : Follows tree .kept links directory names goal)
    (same : Path.saying other = Path.saying names) (ends : EndsSaying names)
    (likewise : EndsSaying other) : Follows tree .kept links directory other goal := by
  have allowed (name : Bytes) (rest : List Bytes) : MayCreate .kept name rest := by
    simp [MayCreate]
  induction leads generalizing other with
  | nil =>
    rw [eq_nil_of_saying likewise same]
    exact .nil
  | @idle _ _ _ name rest here _ nothing _ ih =>
    refine ih ?_ ends.tail likewise
    rw [same]
    unfold Path.saying
    rw [List.filter_cons_of_neg (by simpa using nothing)]
  | up here _ _ ih =>
    obtain ⟨idles, more, rfl, nothing, behind, left⟩ :=
      exists_of_saying_cons (by decide) same likewise
    exact (Follows.up here (allowed _ _) (ih behind ends.tail left)).idles here nothing
  | enter here _ named solid _ ih =>
    obtain ⟨idles, more, rfl, nothing, behind, left⟩ :=
      exists_of_saying_cons named.saying same likewise
    exact (Follows.enter here (allowed _ _) named solid (ih behind ends.tail left)).idles
      here nothing
  | keep here _ named there kept =>
    obtain ⟨idles, more, rfl, nothing, behind, left⟩ :=
      exists_of_saying_cons named.saying same likewise
    rw [eq_nil_of_saying left behind]
    exact (Follows.keep here (allowed _ _) named there kept).idles here nothing
  | @link _ _ _ _ rest target here _ named there on _ ih =>
    obtain ⟨idles, more, rfl, nothing, behind, left⟩ :=
      exists_of_saying_cons named.saying same likewise
    -- A link is followed for what comes behind it, so that the other names do not end here either.
    have filled : rest ≠ [] := fun empty => on ⟨empty, rfl⟩
    have also : more ≠ [] := by
      rintro rfl
      exact filled (eq_nil_of_saying ends.tail behind.symm)
    have onward : Path.saying (FileSystem.names target ++ more) =
        Path.saying (FileSystem.names target ++ rest) := by
      unfold Path.saying at behind ⊢
      rw [List.filter_append, List.filter_append, behind]
    have led := ih onward (ends.tail.append filled _) (left.append also _)
    exact (Follows.link here (allowed _ _) named there (fun both => also both.1) led).idles
      here nothing

end Follows

/-- A path leads where another with the same components does, if it can be followed at all and
neither asks for a directory. -/
theorem resolve_of_components {files : FileSystem} {path other : Path} {goal : Location}
    (same : path.components = other.components) (found : files.resolve .kept path = .ok goal)
    (solid : files.tree.get? goal ≠ some .directory) (written : IsPathName other)
    (ends : EndsSaying (names other)) : files.resolve .kept other = .ok goal := by
  obtain ⟨-, leads⟩ := resolve_eq_ok_iff.mp found
  have start : files.startOf other = files.startOf path := by
    have absolute : other.isAbsolute = path.isAbsolute := by
      rw [Bool.eq_iff_iff, Path.isAbsolute_iff_root, Path.isAbsolute_iff_root, same]
    unfold startOf
    rw [absolute]
  have said : Path.saying (names other) = Path.saying (names path) := by
    rw [saying_names, saying_names, same]
  have tells : EndsSaying (names path) := fun name last idle =>
    solid (leads.get?_of_idle last idle)
  exact resolve_eq_ok_iff.mpr ⟨written, start ▸ leads.of_saying said tells ends⟩

/-- Paths with the same components lead to the same location, when neither leads to a directory. -/
theorem resolve_eq_of_components {files : FileSystem} {path other : Path} {goal place : Location}
    (same : path.components = other.components) (found : files.resolve .kept path = .ok goal)
    (solid : files.tree.get? goal ≠ some .directory) (also : files.resolve .kept other = .ok place)
    (bare : files.tree.get? place ≠ some .directory) : place = goal := by
  obtain ⟨written, aims⟩ := resolve_eq_ok_iff.mp also
  have ends : EndsSaying (names other) := fun name last idle =>
    bare (aims.get?_of_idle last idle)
  exact Except.ok.inj (also.symm.trans (resolve_of_components same found solid written ends))

end FileSystem

end LicenseHeader
