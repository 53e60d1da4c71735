import LicenseHeader.Proofs.File.Resolve

/-!
# The last name of a path

The file name of a path is its last piece, unless that says nothing or climbs
(`Path.fileName?_of_last`). A path leads to an entry of this name in some directory, and one that
ends in a piece that says nothing leads to a directory.
-/

namespace LicenseHeader

namespace Path

/-- Bytes without a slash that are written behind others make only the last piece longer. -/
theorem pieces_append {tail : Bytes} (whole : slash ∉ tail) (front : Bytes) :
    ∃ init piece, pieces front = init ++ [piece] ∧
      pieces (front ++ tail) = init ++ [piece ++ tail] := by
  induction front with
  | nil => exact ⟨[], [], rfl, pieces_of_not_mem whole⟩
  | cons b rest ih =>
    obtain ⟨init, piece, before, after⟩ := ih
    rw [List.cons_append, pieces, pieces, before, after]
    by_cases divides : b = slash
    · rw [if_pos divides, if_pos divides]
      exact ⟨[] :: init, piece, rfl, rfl⟩
    · rw [if_neg divides, if_neg divides]
      cases init with
      | nil => exact ⟨[], b :: piece, rfl, rfl⟩
      | cons first more => exact ⟨(b :: first) :: more, piece, rfl, rfl⟩

/-- The last piece of bytes that end in others without a slash ends in these. -/
theorem exists_last_append {tail : Bytes} (whole : slash ∉ tail) (front : Bytes) :
    ∃ piece, (pieces (front ++ tail)).getLast? = some (piece ++ tail) := by
  obtain ⟨init, piece, -, after⟩ := pieces_append whole front
  exact ⟨piece, by rw [after, List.getLast?_concat]⟩

/-- There is a last piece. -/
theorem exists_last (bytes : Bytes) : ∃ piece, (pieces bytes).getLast? = some piece := by
  have whole : slash ∉ ([] : Bytes) := List.not_mem_nil
  obtain ⟨piece, last⟩ := exists_last_append whole bytes
  rw [List.append_nil] at last
  exact ⟨_, last⟩

/-- No piece holds a slash. -/
theorem not_mem_of_mem_pieces {bytes piece : Bytes} (member : piece ∈ pieces bytes) :
    slash ∉ piece := by
  induction bytes generalizing piece with
  | nil =>
    obtain rfl := List.mem_singleton.mp member
    exact List.not_mem_nil
  | cons b rest ih =>
    have whole : slash ∉ ([] : Bytes) := List.not_mem_nil
    obtain ⟨init, last, before, -⟩ := pieces_append whole rest
    rw [pieces] at member
    by_cases divides : b = slash
    · rw [if_pos divides] at member
      rcases List.mem_cons.mp member with rfl | later
      · exact List.not_mem_nil
      · exact ih later
    · rw [if_neg divides] at member
      cases cut : pieces rest with
      | nil =>
        rw [before] at cut
        exact absurd cut (by simp)
      | cons first more =>
        rw [cut] at member ih
        rcases List.mem_cons.mp member with rfl | later
        · rw [List.mem_cons, not_or]
          exact ⟨Ne.symm divides, ih List.mem_cons_self⟩
        · exact ih (List.mem_cons_of_mem first later)

/-- Bytes that do not end in a slash end in a piece that is not empty. -/
theorem last_ne_nil {bytes piece : Bytes} {b : UInt8} (last : (pieces bytes).getLast? = some piece)
    (final : bytes.getLast? = some b) (solid : b ≠ slash) : piece ≠ [] := by
  obtain ⟨front, rfl⟩ := List.getLast?_eq_some_iff.mp final
  have whole : slash ∉ [b] := by
    rw [List.mem_singleton]
    exact Ne.symm solid
  obtain ⟨start, ends⟩ := exists_last_append whole front
  rw [last] at ends
  rw [Option.some.inj ends]
  simp

section Last

variable {path : Path} {piece : Bytes}

/-- The last component of a path is what its last piece writes, if that says anything. -/
theorem components_getLast? (last : (pieces path.bytes).getLast? = some piece)
    (saying : ¬ isIdle piece = true) : path.components.getLast? = componentOf? piece := by
  have ends (start : List Component) (front : List Bytes) :
      (start ++ (front ++ [piece]).filterMap componentOf?).getLast? = componentOf? piece := by
    have written : ∃ component, componentOf? piece = some component := by
      unfold componentOf?
      rw [if_neg saying]
      split <;> exact ⟨_, rfl⟩
    obtain ⟨component, written⟩ := written
    rw [List.filterMap_append, ← List.append_assoc, written]
    simp [written]
  obtain ⟨init, whole⟩ := List.getLast?_eq_some_iff.mp last
  unfold components parts
  rw [whole]
  cases init with
  | nil =>
    have solid : piece ≠ Component.here.bytes := by
      intro dot
      exact saying (by rw [dot]; rfl)
    simp only [List.nil_append, if_neg solid]
    exact ends [] []
  | cons first more =>
    cases rest : more ++ [piece] with
    | nil => exact absurd rest (by simp)
    | cons second others =>
      simp only [List.cons_append, rest]
      split
      · exact rest ▸ ends _ more
      · split
        · exact rest ▸ ends _ more
        · exact rest ▸ ends [] (first :: more)

/-- The file name of a path is its last piece, unless that says nothing or climbs. -/
theorem fileName?_of_last (last : (pieces path.bytes).getLast? = some piece)
    (saying : ¬ isIdle piece = true) :
    path.fileName? = if piece = Component.up.bytes then none else some piece := by
  unfold fileName?
  rw [components_getLast? last saying]
  unfold componentOf?
  rw [if_neg saying]
  by_cases climbs : piece = Component.up.bytes
  · rw [if_pos climbs, if_pos climbs]
  · rw [if_neg climbs, if_neg climbs]

end Last

/-- The path beside another ends in the name that it is given. -/
theorem exists_withFileName (path : Path) (name : Bytes) :
    ∃ front, (path.withFileName name).bytes = front ++ name := by
  have join (base : Path) : ∃ front, (base.join ⟨name⟩).bytes = front ++ name := by
    unfold join
    split
    · exact ⟨[], rfl⟩
    · split
      · exact ⟨[], rfl⟩
      · split
        · exact ⟨base.bytes, rfl⟩
        · exact ⟨base.bytes ++ [slash], by simp⟩
  unfold withFileName
  split
  · exact join path.parent
  · exact join path

/-- The start of a path is no name, and what follows it are pieces of the path. -/
theorem parts_of_pieces (path : Path) : (∀ name, path.parts.start ≠ some (.entry name)) ∧
    ∀ piece ∈ path.parts.body, piece ∈ pieces path.bytes := by
  unfold parts
  split
  · simp
  · split <;> simp_all
  · split
    · simp_all
    · split <;> simp_all

/-- The components that pieces write do not start at the root. -/
theorem root_not_mem (body : List Bytes) : Component.root ∉ body.filterMap componentOf? := by
  intro member
  obtain ⟨piece, -, written⟩ := List.mem_filterMap.mp member
  unfold componentOf? at written
  split at written
  · contradiction
  · split at written <;> exact absurd (Option.some.inj written) (by simp)

/-- A file name holds no slash. -/
theorem not_mem_fileName? {path : Path} {name : Bytes} (named : path.fileName? = some name) :
    slash ∉ name := by
  have last : path.components.getLast? = some (.entry name) := by
    unfold fileName? at named
    split at named
    next other last =>
      rw [last, Option.some.inj named]
    · contradiction
  obtain ⟨start, body⟩ := parts_of_pieces path
  rcases List.mem_append.mp (List.mem_of_getLast? last) with first | later
  · exact absurd (Option.mem_toList.mp first) (start name)
  · obtain ⟨piece, member, written⟩ := List.mem_filterMap.mp later
    have same : piece = name := by
      unfold componentOf? at written
      split at written
      · contradiction
      · split at written
        · exact absurd (Option.some.inj written) (by simp)
        · exact Component.entry.inj (Option.some.inj written)
    exact same ▸ not_mem_of_mem_pieces (body piece member)

end Path

namespace FileSystem

/-- The last of the names of a path is its last piece. -/
theorem names_getLast? (path : Path) :
    (names path).getLast? = (Path.pieces path.bytes).getLast? := by
  obtain ⟨piece, last⟩ := Path.exists_last path.bytes
  unfold names
  simp only [last, Option.toList_some, List.getLast?_concat]

section Follows

variable {tree : FileTree} {links : Nat} {directory goal : Location} {names : List Bytes}
  {name : Bytes}

/-- Names of which the last says nothing lead to a directory. -/
theorem Follows.get?_of_idle (leads : Follows tree .kept links directory names goal)
    (final : names.getLast? = some name) (nothing : Path.isIdle name = true) :
    tree.get? goal = some .directory := by
  -- Only an idle name can come last, so that every other step is taken towards more names.
  induction leads with
  | nil => contradiction
  | @idle links directory goal first rest here allowed idle more ih =>
    cases rest with
    | nil =>
      cases more
      exact here
    | cons second others => exact ih (by rwa [List.getLast?_cons_cons] at final)
  | @up links directory goal rest here allowed more ih =>
    cases rest with
    | nil =>
      obtain rfl : Component.up.bytes = name := Option.some.inj final
      contradiction
    | cons second others => exact ih (by rwa [List.getLast?_cons_cons] at final)
  | @enter links directory goal first rest here allowed named solid more ih =>
    cases rest with
    | nil =>
      obtain rfl : first = name := Option.some.inj final
      exact absurd nothing named.saying
    | cons second others => exact ih (by rwa [List.getLast?_cons_cons] at final)
  | @keep links directory first target here allowed named there kept =>
    obtain rfl : first = name := Option.some.inj final
    exact absurd nothing named.saying
  | @link links directory goal first rest target here allowed named there on more ih =>
    cases rest with
    | nil => exact absurd ⟨rfl, rfl⟩ on
    | cons second others =>
      apply ih
      rw [List.getLast?_cons_cons] at final
      rw [List.getLast?_append, final]
      rfl

/-- Names of which the last says something and does not climb lead to an entry of this name. -/
theorem Follows.getLast?_eq (leads : Follows tree .kept links directory names goal)
    (final : names.getLast? = some name) (saying : ¬ Path.isIdle name = true)
    (level : ¬ name = Component.up.bytes) : goal.getLast? = some name ∧ IsEntryName name := by
  induction leads with
  | nil => contradiction
  | @idle links directory goal first rest here allowed idle more ih =>
    cases rest with
    | nil =>
      obtain rfl : first = name := Option.some.inj final
      exact absurd idle saying
    | cons second others => exact ih (by rwa [List.getLast?_cons_cons] at final)
  | @up links directory goal rest here allowed more ih =>
    cases rest with
    | nil => exact absurd (Option.some.inj final).symm level
    | cons second others => exact ih (by rwa [List.getLast?_cons_cons] at final)
  | @enter links directory goal first rest here allowed named solid more ih =>
    cases rest with
    | nil =>
      obtain rfl : first = name := Option.some.inj final
      cases more
      exact ⟨List.getLast?_concat, named⟩
    | cons second others => exact ih (by rwa [List.getLast?_cons_cons] at final)
  | @keep links directory first target here allowed named there kept =>
    obtain rfl : first = name := Option.some.inj final
    exact ⟨List.getLast?_concat, named⟩
  | @link links directory goal first rest target here allowed named there on more ih =>
    cases rest with
    | nil => exact absurd ⟨rfl, rfl⟩ on
    | cons second others =>
      apply ih
      rw [List.getLast?_cons_cons] at final
      rw [List.getLast?_append, final]
      rfl

/-- Names of which the last says something and does not climb lead to the same location when a file
is to be made there, unless they lead to a link. -/
theorem Follows.created (leads : Follows tree .kept links directory names goal)
    (final : names.getLast? = some name) (saying : ¬ Path.isIdle name = true)
    (level : ¬ name = Component.up.bytes)
    (solid : ∀ target, tree.get? goal ≠ some (.link target)) :
    Follows tree .created links directory names goal := by
  have allowed {first : Bytes} {rest : List Bytes} (final : (first :: rest).getLast? = some name) :
      MayCreate .created first rest := by
    intro ends
    simp only [endsInDirectory, decide_true, Bool.true_and, Bool.or_eq_true, Bool.and_eq_true,
      decide_eq_true_eq] at ends
    rcases ends with rfl | ⟨rfl, idle | climbs⟩
    · obtain rfl : [] = name := Option.some.inj final
      exact saying rfl
    · obtain rfl : first = name := Option.some.inj final
      exact saying idle
    · obtain rfl : first = name := Option.some.inj final
      exact level climbs
  induction leads with
  | nil => contradiction
  | @idle links directory goal first rest here _ idle more ih =>
    cases rest with
    | nil =>
      obtain rfl : first = name := Option.some.inj final
      exact absurd idle saying
    | cons second others =>
      exact .idle here (allowed final) idle (ih (by rwa [List.getLast?_cons_cons] at final) solid)
  | @up links directory goal rest here _ more ih =>
    cases rest with
    | nil => exact absurd (Option.some.inj final).symm level
    | cons second others =>
      exact .up here (allowed final) (ih (by rwa [List.getLast?_cons_cons] at final) solid)
  | @enter links directory goal first rest here _ named bare more ih =>
    cases rest with
    | nil =>
      cases more
      exact .enter here (allowed final) named bare .nil
    | cons second others =>
      exact .enter here (allowed final) named bare
        (ih (by rwa [List.getLast?_cons_cons] at final) solid)
  | keep here _ named there kept => exact absurd there (solid _)
  | @link links directory goal first rest target here _ named there on more ih =>
    cases rest with
    | nil => exact absurd ⟨rfl, rfl⟩ on
    | cons second others =>
      refine .link here (allowed final) named there (by simp) (ih ?_ solid)
      rw [List.getLast?_cons_cons] at final
      rw [List.getLast?_append, final]
      rfl

end Follows

section Located

variable {files : FileSystem} {path : Path} {goal : Location} {piece : Bytes}

/-- A path of which the last piece is a name leads to an entry of this name. -/
theorem getLast?_of_resolve (found : files.resolve .kept path = .ok goal)
    (last : (Path.pieces path.bytes).getLast? = some piece) (saying : ¬ Path.isIdle piece = true)
    (level : ¬ piece = Component.up.bytes) : goal.getLast? = some piece := by
  obtain ⟨-, leads⟩ := resolve_eq_ok_iff.mp found
  exact (leads.getLast?_eq (names_getLast? path ▸ last) saying level).1

/-- A path that ends in a name of an entry, and not in a slash, leads to an entry of its file
name. -/
theorem exists_fileName? (aimed : namesNoEntry path = false ∧ endsWithSlash path = false)
    (found : files.resolve .kept path = .ok goal) :
    ∃ name, path.fileName? = some name ∧ goal.getLast? = some name := by
  obtain ⟨piece, last⟩ := Path.exists_last path.bytes
  have solid : piece ≠ [] := by
    cases final : path.bytes.getLast? with
    | none =>
      have empty : path.bytes = [] := List.getLast?_eq_none_iff.mp final
      exact absurd empty (resolve_eq_ok_iff.mp found).1.present
    | some b =>
      have slashed := aimed.2
      unfold endsWithSlash at slashed
      rw [final, decide_eq_false_iff_not, Option.some.injEq] at slashed
      exact Path.last_ne_nil last final slashed
  have named : Path.isIdle piece = false ∧ ¬ piece = Component.up.bytes := by
    obtain ⟨front, whole⟩ := List.getLast?_eq_some_iff.mp ((names_getLast? path).trans last)
    have entry := aimed.1
    unfold namesNoEntry at entry
    rw [whole, List.filter_append] at entry
    simpa [solid] using entry
  have saying : ¬ Path.isIdle piece = true := by
    rw [named.1]
    exact Bool.false_ne_true
  refine ⟨piece, ?_, getLast?_of_resolve found last saying named.2⟩
  rw [Path.fileName?_of_last last saying, if_neg named.2]

/-- The file name of a path to something else than a directory is its last piece. -/
theorem getLast?_of_fileName? {name : Bytes} (named : path.fileName? = some name)
    (found : files.resolve .kept path = .ok goal)
    (other : files.tree.get? goal ≠ some .directory) :
    (Path.pieces path.bytes).getLast? = some name ∧ ¬ Path.isIdle name = true ∧
      ¬ name = Component.up.bytes := by
  obtain ⟨piece, last⟩ := Path.exists_last path.bytes
  obtain ⟨-, leads⟩ := resolve_eq_ok_iff.mp found
  have saying : ¬ Path.isIdle piece = true := by
    intro nothing
    exact other (leads.get?_of_idle (names_getLast? path ▸ last) nothing)
  rw [Path.fileName?_of_last last saying] at named
  by_cases climbs : piece = Component.up.bytes
  · rw [if_pos climbs] at named
    contradiction
  · rw [if_neg climbs] at named
    obtain rfl := Option.some.inj named
    exact ⟨last, saying, climbs⟩

/-- The file name of a path to something else than a directory is the last name of its location. -/
theorem getLast?_of_solid {name : Bytes} (named : path.fileName? = some name)
    (found : files.resolve .kept path = .ok goal)
    (other : files.tree.get? goal ≠ some .directory) : goal.getLast? = some name := by
  obtain ⟨last, saying, level⟩ := getLast?_of_fileName? named found other
  exact getLast?_of_resolve found last saying level

end Located

end FileSystem

end LicenseHeader
