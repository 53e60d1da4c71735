import LicenseHeader.Proofs.Path.Shown

/-!
# Paths in a directory

A path that is not absolute, written in a directory, has the components of the directory and then
its own, but for a dot in front of them (`Path.components_join`). So what is left of a path below a
directory leads there from the directory again (`Path.leads_belowOrSelf`).
-/

namespace LicenseHeader.Path

/-- Whether a name, written in a directory, has the components of a path. -/
def Leads (root name path : Path) : Prop := (root.join name).components = path.components

variable {root path : Path}

/-- All pieces of a path write what those after its start do. -/
theorem filterMap_pieces (path : Path) :
    (pieces path.bytes).filterMap componentOf? = path.parts.body.filterMap componentOf? := by
  have empty : componentOf? [] = none := rfl
  have dot : componentOf? Component.here.bytes = none := rfl
  unfold parts
  split
  next cut => rw [cut]
  next piece cut =>
    rw [cut]
    split
    next here => rw [here, List.filterMap_cons_none dot]
    next => rfl
  next piece more _ cut =>
    rw [cut]
    split
    next start => rw [start, List.filterMap_cons_none empty]
    next =>
      split
      next here => rw [here, List.filterMap_cons_none dot]
      next => rfl

/-- A path behind an absolute directory adds what its pieces write. -/
theorem components_join (absolute : root.isAbsolute = true) (relative : path.isAbsolute = false) :
    (root.join path).components =
      root.components ++ path.parts.body.filterMap componentOf? := by
  have written (bytes : Bytes) : (⟨slash :: bytes⟩ : Path).components =
      .root :: (pieces bytes).filterMap componentOf? := by
    unfold components
    rw [parts_slash]
    rfl
  obtain ⟨bytes⟩ := root
  obtain ⟨rest, rfl⟩ : ∃ rest, bytes = slash :: rest := by
    have first := (isAbsolute_iff _).mp absolute
    cases bytes with
    | nil => contradiction
    | cons b rest => exact ⟨rest, by rw [Option.some.inj first]⟩
  -- Behind a slash at the end of the directory there is one empty piece less.
  have joined : (Path.join ⟨slash :: rest⟩ path).components =
      .root :: ((pieces rest).filterMap componentOf? ++
        (pieces path.bytes).filterMap componentOf?) := by
    unfold join
    rw [if_neg (by simp [relative])]
    dsimp only
    obtain rfl | ⟨front, last, rfl⟩ := List.eq_nil_or_concat rest
    · exact written path.bytes
    · rw [List.concat_eq_append, ← List.cons_append, List.getLast?_concat]
      dsimp only
      by_cases divides : last = slash
      · have empty : (pieces []).filterMap componentOf? = [] := rfl
        rw [if_pos divides, divides, List.cons_append, List.cons_append, List.append_assoc,
          List.singleton_append, written, pieces_append_slash, pieces_append_slash,
          List.filterMap_append, List.filterMap_append, empty, List.append_nil]
      · rw [if_neg divides, List.cons_append, List.cons_append, written, pieces_append_slash,
          List.filterMap_append]
  rw [joined, written, ← filterMap_pieces path, List.cons_append]

/-- A path of steps behind an absolute directory has the components of both. -/
theorem components_join_of_steps (absolute : root.isAbsolute = true)
    (steps : ∀ component ∈ path.components, IsStep component) :
    (root.join path).components = root.components ++ path.components := by
  have relative : path.isAbsolute = false := by
    rw [← Bool.not_eq_true, isAbsolute_iff_root]
    intro member
    cases steps _ member
  have start : path.parts.start = none := by
    rcases start_cases path with first | first | ⟨first, -⟩
    · rw [isAbsolute, first] at relative
      contradiction
    · have member : Component.here ∈ path.components := by
        unfold components
        rw [first]
        exact List.mem_cons_self
      cases steps _ member
    · exact first
  have whole : path.components = path.parts.body.filterMap componentOf? := by
    unfold components
    rw [start]
    rfl
  rw [components_join absolute relative, whole]

/-- Steps that are written behind an absolute directory are added to its components. -/
theorem components_foldl_join {steps : List Component} (absolute : root.isAbsolute = true)
    (all : ∀ step ∈ steps, IsStep step) :
    (steps.foldl (fun path component => path.join ⟨component.bytes⟩) root).components =
      root.components ++ steps := by
  induction steps generalizing root with
  | nil => exact (List.append_nil _).symm
  | cons step more ih =>
    obtain ⟨first, others⟩ := List.forall_mem_cons.mp all
    have single : ∀ component ∈ [step], IsStep component := List.forall_mem_singleton.mpr first
    have alone : (⟨step.bytes⟩ : Path).components = [step] := by
      have made := components_ofComponents single
      rwa [ofComponents_of_steps single] at made
    have joined : (root.join ⟨step.bytes⟩).components = root.components ++ [step] := by
      rw [components_join_of_steps absolute (by rwa [alone]), alone]
    have also := (isAbsolute_of_below (components_ne_nil absolute) joined).trans absolute
    rw [List.foldl_cons, ih also others, joined, List.append_assoc, List.singleton_append]

/-- An absolute path that is written once more from its components has the same ones. -/
theorem components_ofComponents_of_isAbsolute (absolute : path.isAbsolute = true) :
    (ofComponents path.components).components = path.components := by
  have whole := components_of_isAbsolute absolute
  have steps := isStep_of_components (List.cons_ne_nil .root []) whole
  rw [whole]
  exact @components_foldl_join ⟨[slash]⟩ _ rfl steps

/-- What a name adds to the components of a directory. -/
def steps (name : Bytes) : List Component := (pieces name).filterMap componentOf?

/-- A name behind an absolute directory adds its steps. -/
theorem components_join_name {name : Bytes} (absolute : root.isAbsolute = true)
    (relative : (⟨name⟩ : Path).isAbsolute = false) :
    (root.join ⟨name⟩).components = root.components ++ steps name := by
  rw [components_join absolute relative, steps, filterMap_pieces ⟨name⟩]

/-- An absolute path is the same in every directory. -/
theorem leads_self (root : Path) (absolute : path.isAbsolute = true) : Leads root path path := by
  unfold Leads join
  rw [if_pos absolute]

/-- What is left of an absolute path below a directory leads there from the directory. -/
theorem leads_belowOrSelf (absolute : root.isAbsolute = true) (also : path.isAbsolute = true) :
    Leads root (path.belowOrSelf root) path := by
  cases below : path.below? root with
  | none =>
    rw [belowOrSelf_of_elsewhere below]
    exact leads_self root also
  | some rest =>
    have whole := components_below below
    rw [belowOrSelf_of_below below, Leads, whole]
    exact components_join_of_steps absolute
      (isStep_of_components (components_ne_nil absolute) whole)

end LicenseHeader.Path
