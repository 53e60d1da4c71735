import LicenseHeader.Proofs.File.Spelling
import LicenseHeader.Proofs.Path.Below

/-!
# How a path is listed

A path below a directory is listed by its components there, unless these climb first, and any other
path as it was written (`Path.shows_shown`). The components that are written behind each other are
those of the path that they make (`Path.components_ofComponents`).
-/

namespace LicenseHeader.Path

/-- Whether a component can be written behind others. -/
inductive IsStep : Component → Prop where
  /-- Two dots. -/
  | up : IsStep .up
  /-- A name. -/
  | entry {name : Bytes} (named : IsName name) : IsStep (.entry name)

/-- Whether a text is how a path is listed below a directory. -/
structure Shows (root path : Path) (text : String) : Prop where
  /-- A path below the directory is its components there. -/
  below : ∀ rest, root.components ≠ [] → path.components = root.components ++ rest →
    rest.head? ≠ some .up → text = (ofComponents rest).display
  /-- A path that lies elsewhere, or that climbs first, is what was written. -/
  elsewhere : root.isAbsolute = true → path.isAbsolute = true →
    (∀ rest, path.components = root.components ++ rest → rest.head? = some .up) →
      text = path.display

section Steps

variable {component : Component} {body : List Bytes} {steps : List Component}

/-- A piece writes a step. -/
theorem isStep_of_piece {piece : Bytes} (whole : slash ∉ piece)
    (written : componentOf? piece = some component) : IsStep component := by
  unfold componentOf? at written
  split at written
  · contradiction
  next saying =>
  split at written
  next => exact Option.some.inj written ▸ .up
  next level => exact Option.some.inj written ▸ .entry ⟨saying, level, whole⟩

/-- A step is one piece, which writes it. -/
theorem IsStep.piece (step : IsStep component) :
    slash ∉ component.bytes ∧ componentOf? component.bytes = some component := by
  cases step with
  | up => decide
  | entry named => exact ⟨named.whole, componentOf?_of_isName named⟩

/-- A piece that writes something is no idle one. -/
theorem not_isIdle_of_componentOf? {piece : Bytes} (written : componentOf? piece = some component) :
    ¬ isIdle piece = true := by
  intro idle
  rw [componentOf?_of_idle idle] at written
  contradiction

/-- The components of a path behind the first ones are steps. -/
theorem isStep_of_components {path : Path} {first rest : List Component} (filled : first ≠ [])
    (whole : path.components = first ++ rest) : ∀ component ∈ rest, IsStep component := by
  obtain ⟨-, body⟩ := parts_of_pieces path
  have written : ∀ component ∈ path.parts.body.filterMap componentOf?, IsStep component := by
    intro component member
    obtain ⟨piece, present, written⟩ := List.mem_filterMap.mp member
    exact isStep_of_piece (not_mem_of_mem_pieces (body piece present)) written
  have behind : rest <:+ path.parts.body.filterMap componentOf? := by
    unfold components at whole
    obtain ⟨c, more, rfl⟩ := List.exists_cons_of_ne_nil filled
    cases start : path.parts.start with
    | none =>
      rw [start] at whole
      exact ⟨c :: more, whole.symm⟩
    | some s =>
      rw [start] at whole
      exact ⟨more, (List.cons.inj whole).2.symm⟩
  exact fun component member => written component (behind.mem member)

/-- Joined pieces that are not empty and hold no slash do not end with one. -/
theorem getLast?_joinPieces (solid : ∀ piece ∈ body, piece ≠ [] ∧ slash ∉ piece)
    (filled : body ≠ []) : ∃ b, (joinPieces body).getLast? = some b ∧ b ≠ slash := by
  obtain rfl | ⟨front, last, rfl⟩ := List.eq_nil_or_concat body
  · contradiction
  · obtain ⟨written, whole⟩ := solid last (by simp)
    have ends : (joinPieces (front.concat last)).getLast? = last.getLast? := by
      rw [List.concat_eq_append]
      by_cases alone : front = []
      · rw [alone]
        rfl
      · rw [joinPieces_concat alone, List.getLast?_append, List.getLast?_cons]
        simp [List.getLast?_eq_some_getLast written]
    refine ⟨last.getLast written, ?_, ?_⟩
    · rw [ends, List.getLast?_eq_some_getLast written]
    · intro slashed
      exact whole (slashed ▸ List.getLast_mem written)

/-- A piece joined to others comes behind them. -/
theorem join_joinPieces {piece : Bytes} (solid : ∀ piece ∈ body, piece ≠ [] ∧ slash ∉ piece)
    (whole : slash ∉ piece) :
    (⟨joinPieces body⟩ : Path).join ⟨piece⟩ = ⟨joinPieces (body ++ [piece])⟩ := by
  have relative : (⟨piece⟩ : Path).isAbsolute = false := by
    unfold isAbsolute parts
    rw [pieces_of_not_mem whole]
    split <;> simp_all
    split <;> simp
  unfold join
  rw [relative, if_neg Bool.false_ne_true]
  by_cases filled : body = []
  · rw [filled]
    rfl
  · obtain ⟨b, last, other⟩ := getLast?_joinPieces solid filled
    dsimp only
    rw [last, joinPieces_concat filled]
    exact if_neg other

/-- Steps joined to pieces come behind them. -/
theorem foldl_join (solid : ∀ piece ∈ body, piece ≠ [] ∧ slash ∉ piece)
    (all : ∀ step ∈ steps, IsStep step) :
    steps.foldl (fun path component => path.join ⟨component.bytes⟩) (⟨joinPieces body⟩ : Path) =
      ⟨joinPieces (body ++ steps.map Component.bytes)⟩ := by
  induction steps generalizing body with
  | nil =>
    rw [List.map_nil, List.append_nil]
    rfl
  | cons step more ih =>
    obtain ⟨first, others⟩ := List.forall_mem_cons.mp all
    obtain ⟨whole, written⟩ := first.piece
    have filled : step.bytes ≠ [] := fun empty =>
      not_isIdle_of_componentOf? written (by rw [empty]; rfl)
    have solid' : ∀ piece ∈ body ++ [step.bytes], piece ≠ [] ∧ slash ∉ piece := by
      intro piece member
      rcases List.mem_append.mp member with before | here
      · exact solid piece before
      · exact List.mem_singleton.mp here ▸ ⟨filled, whole⟩
    rw [List.foldl_cons, join_joinPieces solid whole, ih solid' others, List.map_cons,
      List.append_assoc]
    rfl

/-- Steps are written with slashes between them. -/
theorem ofComponents_of_steps (all : ∀ step ∈ steps, IsStep step) :
    ofComponents steps = ⟨joinPieces (steps.map Component.bytes)⟩ :=
  @foldl_join [] steps (by simp) all

/-- The pieces of steps write them. -/
theorem filterMap_bytes (all : ∀ step ∈ steps, IsStep step) :
    (steps.map Component.bytes).filterMap componentOf? = steps := by
  induction steps with
  | nil => rfl
  | cons step more ih =>
    obtain ⟨first, others⟩ := List.forall_mem_cons.mp all
    rw [List.map_cons, List.filterMap_cons_some first.piece.2, ih others]

/-- Steps are the components of the path that they write. -/
theorem components_ofComponents (all : ∀ step ∈ steps, IsStep step) :
    (ofComponents steps).components = steps := by
  rw [ofComponents_of_steps all, components_joinPieces, filterMap_bytes all]
  · intro piece member
    obtain ⟨step, here, rfl⟩ := List.mem_map.mp member
    exact (all step here).piece.1
  · intro piece first
    obtain ⟨step, here, rfl⟩ := List.mem_map.mp (List.mem_of_mem_head? first)
    exact not_isIdle_of_componentOf? (all step here).piece.2

end Steps

section Common

variable {path base : List Component}

/-- What two lists share is dropped from both. -/
theorem exists_common (path base : List Component) : ∃ common,
    path = common ++ (dropCommon path base).1 ∧ base = common ++ (dropCommon path base).2 := by
  fun_induction dropCommon path base with
  | case1 path c base ih =>
    obtain ⟨common, first, second⟩ := ih
    exact ⟨c :: common, congrArg _ first, congrArg _ second⟩
  | case2 => exact ⟨[], rfl, rfl⟩
  | case3 => exact ⟨[], rfl, rfl⟩

/-- Nothing is left of a list that starts another. -/
theorem dropCommon_append (base rest : List Component) :
    dropCommon (base ++ rest) base = (rest, []) := by
  induction base with
  | nil => cases rest <;> rfl
  | cons c more ih =>
    rw [List.cons_append, dropCommon, if_pos rfl]
    exact ih

/-- A way out of a directory starts by climbing, if it is known. -/
theorem climb_of_step {first : Component} (level : IsStep first) (path more : List Component) :
    climb path (first :: more) = none ∨
      climb path (first :: more) = some (.up :: (more.map (fun _ => .up) ++ path)) := by
  cases level with
  | up =>
    cases path with
    | nil => exact .inr (by simp [climb])
    | cons c rest => exact .inl rfl
  | entry named =>
    cases path with
    | nil => exact .inr (by simp [climb])
    | cons c rest => exact .inr rfl

end Common

section Shown

variable {path root : Path} {rest : List Component}

/-- A path below a directory starts at the root exactly when the directory does. -/
theorem isAbsolute_of_below (filled : root.components ≠ [])
    (below : path.components = root.components ++ rest) : path.isAbsolute = root.isAbsolute := by
  have steps := isStep_of_components filled below
  rw [Bool.eq_iff_iff, isAbsolute_iff_root, isAbsolute_iff_root, below, List.mem_append]
  constructor
  · rintro (first | later)
    · exact first
    · exact absurd (steps _ later) (by rintro ⟨⟩)
  · exact .inl

/-- A path below a directory is listed by its components there, or as it was written when they
climb. -/
theorem shown_of_below (filled : root.components ≠ [])
    (below : path.components = root.components ++ rest) :
    path.shown (some root) =
      if rest.head? = some .up then path.display else (ofComponents rest).display := by
  have relative : path.relativeTo? root = some (ofComponents rest) := by
    unfold relativeTo?
    rw [isAbsolute_of_below filled below, bne_self_eq_false, if_neg Bool.false_ne_true]
    dsimp only
    rw [below, dropCommon_append]
    cases rest <;> rfl
  unfold shown
  rw [Option.bind_some, relative]
  dsimp only
  rw [components_ofComponents (isStep_of_components filled below)]

/-- A path that does not lie below a directory is listed as it was written. -/
theorem shown_of_elsewhere (absolute : root.isAbsolute = true) (also : path.isAbsolute = true)
    (apart : ∀ rest, path.components ≠ root.components ++ rest) :
    path.shown (some root) = path.display := by
  have start := components_of_isAbsolute absolute
  have start' := components_of_isAbsolute also
  have steps := isStep_of_components (List.cons_ne_nil Component.root []) start
  have steps' := isStep_of_components (List.cons_ne_nil Component.root []) start'
  obtain ⟨common, left, right⟩ := exists_common (path.parts.body.filterMap componentOf?)
    (root.parts.body.filterMap componentOf?)
  unfold shown
  rw [Option.bind_some]
  unfold relativeTo?
  rw [absolute, also, bne_self_eq_false, if_neg Bool.false_ne_true, start, start', dropCommon,
    if_pos rfl]
  dsimp only
  generalize dropCommon _ _ = dropped at left right ⊢
  obtain ⟨down, out⟩ := dropped
  dsimp only at left right ⊢
  cases out with
  | nil =>
    rw [List.append_nil] at right
    refine absurd ?_ (apart down)
    rw [start, start', left, right]
    rfl
  | cons first more =>
    have level := steps first (right ▸ List.mem_append_right common List.mem_cons_self)
    rcases climb_of_step level down more with none | some
    · rw [none]
      rfl
    · have all : ∀ step ∈ Component.up :: (more.map (fun _ => Component.up) ++ down),
          IsStep step := by
        intro step member
        rcases List.mem_cons.mp member with rfl | later
        · exact .up
        · rcases List.mem_append.mp later with climbs | under
          · obtain ⟨c, -, rfl⟩ := List.mem_map.mp climbs
            exact .up
          · exact steps' step (left ▸ List.mem_append_right common under)
      rw [some, Option.map_some]
      dsimp only
      rw [components_ofComponents all]
      exact if_pos rfl

/-- A path is listed by its components below a directory or as it was written. -/
theorem shows_shown (root path : Path) : Shows root path (path.shown (some root)) where
  below rest filled below level := by
    rw [shown_of_below filled below, if_neg level]
  elsewhere absolute also climbs := by
    by_cases below : ∃ rest, path.components = root.components ++ rest
    · obtain ⟨rest, whole⟩ := below
      have filled := components_ne_nil absolute
      rw [shown_of_below filled whole, if_pos (climbs rest whole)]
    · exact shown_of_elsewhere absolute also fun rest whole => below ⟨rest, whole⟩

end Shown

end LicenseHeader.Path
