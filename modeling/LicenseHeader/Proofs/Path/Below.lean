import LicenseHeader.Path.Relative
import LicenseHeader.Proofs.File.Sibling

/-!
# Where a path lies below a directory

`Path.location` is where the components of a path lead when every two dots take one name off. A path
is plain below a directory when what follows the components of the directory is written as names
with one slash between them. Then what is left of the path is its location below the directory, and
no other spelling of the location leaves the same (`Path.belowOrSelf_eq_iff`).
-/

namespace LicenseHeader.Path

/-- Whether bytes are written in a path as the name of an entry. -/
structure IsName (name : Bytes) : Prop where
  /-- They say something. -/
  saying : ¬ isIdle name = true
  /-- They do not climb. -/
  level : ¬ name = Component.up.bytes
  /-- They are one piece. -/
  whole : slash ∉ name

instance (name : Bytes) : Decidable (IsName name) :=
  decidable_of_iff (¬ isIdle name = true ∧ ¬ name = Component.up.bytes ∧ slash ∉ name)
    ⟨fun ⟨saying, level, whole⟩ => ⟨saying, level, whole⟩,
      fun ⟨saying, level, whole⟩ => ⟨saying, level, whole⟩⟩

/-- The names after one more component: a name comes behind them, and two dots take one off. -/
def descend (names : Location) : Component → Location
  | .entry name => names ++ [name]
  | .up => names.dropLast
  | .root => names
  | .here => names

/-- The names to which the components of a path lead, whatever is there. -/
def location (path : Path) : Location := path.components.foldl descend []

/-- Whether what is left of a path below a directory is written as names with one slash between
them. -/
def IsPlain (path root : Path) : Prop :=
  ∃ names : Location, (∀ name ∈ names, IsName name) ∧
    path.below? root = some ⟨joinPieces names⟩

section Pieces

variable {body : List Bytes} {names : Location} {name : Bytes}

/-- There is a piece. -/
theorem pieces_ne_nil (bytes : Bytes) : pieces bytes ≠ [] := by
  obtain ⟨piece, last⟩ := exists_last bytes
  intro none
  rw [none] at last
  contradiction

/-- Pieces behind one come behind a slash. -/
theorem joinPieces_cons (filled : body ≠ []) (piece : Bytes) :
    joinPieces (piece :: body) = piece ++ slash :: joinPieces body := by
  cases body with
  | nil => contradiction
  | cons first more => rfl

/-- Pieces behind others come behind a slash. -/
theorem joinPieces_append {more : List Bytes} (filled : body ≠ []) (behind : more ≠ []) :
    joinPieces (body ++ more) = joinPieces body ++ slash :: joinPieces more := by
  induction body with
  | nil => contradiction
  | cons first rest ih =>
    rw [List.cons_append, joinPieces_cons (List.append_ne_nil_of_right_ne_nil rest behind)]
    by_cases alone : rest = []
    · rw [alone]
      rfl
    · rw [ih alone, joinPieces_cons alone, List.append_assoc]
      rfl

/-- One more piece behind others comes behind a slash. -/
theorem joinPieces_concat (filled : body ≠ []) (piece : Bytes) :
    joinPieces (body ++ [piece]) = joinPieces body ++ slash :: piece :=
  joinPieces_append filled (List.cons_ne_nil piece [])

/-- The pieces of bytes are joined to them. -/
theorem joinPieces_pieces (bytes : Bytes) : joinPieces (pieces bytes) = bytes := by
  induction bytes with
  | nil => rfl
  | cons b rest ih =>
    rw [pieces]
    split
    next divides => rw [joinPieces_cons (pieces_ne_nil rest), ih, divides, List.nil_append]
    next =>
      obtain ⟨first, more, divided⟩ := List.exists_cons_of_ne_nil (pieces_ne_nil rest)
      rw [divided] at ih ⊢
      cases more with
      | nil => exact congrArg (b :: ·) ih
      | cons second others => exact congrArg (b :: ·) ih

/-- Joined pieces are separated again. -/
theorem pieces_joinPieces (filled : body ≠ []) (whole : ∀ piece ∈ body, slash ∉ piece) :
    pieces (joinPieces body) = body := by
  induction body with
  | nil => contradiction
  | cons piece more ih =>
    obtain ⟨first, others⟩ := List.forall_mem_cons.mp whole
    by_cases alone : more = []
    · rw [alone]
      exact pieces_of_not_mem first
    · rw [joinPieces_cons alone, pieces_append_slash, pieces_of_not_mem first, ih alone others]
      rfl

/-- What joined pieces say is what they say apart. -/
theorem filterMap_pieces_joinPieces (whole : ∀ piece ∈ body, slash ∉ piece) :
    (pieces (joinPieces body)).filterMap componentOf? = body.filterMap componentOf? := by
  by_cases filled : body = []
  · rw [filled]
    rfl
  · rw [pieces_joinPieces filled whole]

/-- A piece that says nothing has no component. -/
theorem componentOf?_of_idle (nothing : isIdle name = true) : componentOf? name = none :=
  if_pos nothing

/-- A name is a component. -/
theorem componentOf?_of_isName (named : IsName name) : componentOf? name = some (.entry name) := by
  unfold componentOf?
  rw [if_neg named.saying, if_neg named.level]

/-- Names are the components that they write. -/
theorem filterMap_componentOf? (proper : ∀ name ∈ names, IsName name) :
    names.filterMap componentOf? = names.map .entry := by
  induction names with
  | nil => rfl
  | cons name more ih =>
    obtain ⟨first, others⟩ := List.forall_mem_cons.mp proper
    rw [List.filterMap_cons_some (componentOf?_of_isName first), ih others, List.map_cons]

/-- Pieces at the end that say nothing have no components. -/
theorem filterMap_dropIdleEnd (body : List Bytes) :
    (dropIdleEnd body).filterMap componentOf? = body.filterMap componentOf? := by
  obtain ⟨front, idles, whole, dropped, nothing⟩ := exists_dropIdleEnd body
  have silent : idles.filterMap componentOf? = [] :=
    List.filterMap_eq_nil_iff.mpr fun idle member => componentOf?_of_idle (nothing idle member)
  rw [dropped, whole, List.filterMap_append, silent, List.append_nil]

/-- Pieces in front that say nothing have no components. -/
theorem filterMap_dropWhile (body : List Bytes) :
    (body.dropWhile isIdle).filterMap componentOf? = body.filterMap componentOf? := by
  have silent : (body.takeWhile isIdle).filterMap componentOf? = [] :=
    List.filterMap_eq_nil_iff.mpr fun idle member =>
      componentOf?_of_idle (List.all_eq_true.mp List.all_takeWhile idle member)
  rw [← List.nil_append (List.filterMap _ (body.dropWhile isIdle)), ← silent,
    ← List.filterMap_append, List.takeWhile_append_dropWhile]

/-- Every piece that says something has a component. -/
theorem exists_component {piece : Bytes} (saying : ¬ isIdle piece = true) :
    ∃ component, componentOf? piece = some component := by
  unfold componentOf?
  rw [if_neg saying]
  split
  · exact ⟨_, rfl⟩
  · exact ⟨_, rfl⟩

/-- Pieces that say something are dropped one for one component. -/
theorem filterMap_dropSaying (count : Nat) (body : List Bytes) :
    (dropSaying count body).filterMap componentOf? = (body.filterMap componentOf?).drop count := by
  fun_induction dropSaying count body with
  | case1 body => rfl
  | case2 count => simp
  | case3 count piece more idle ih =>
    rw [ih, List.filterMap_cons_none (componentOf?_of_idle idle)]
  | case4 count piece more saying ih =>
    obtain ⟨component, written⟩ := exists_component saying
    rw [ih, List.filterMap_cons_some written, List.drop_succ_cons]

/-- Dropping keeps pieces. -/
theorem mem_of_mem_dropSaying {count : Nat} {piece : Bytes}
    (member : piece ∈ dropSaying count body) : piece ∈ body := by
  fun_induction dropSaying count body with
  | case1 body => exact member
  | case2 count => exact member
  | case3 count first more idle ih => exact List.mem_cons_of_mem first (ih member)
  | case4 count first more saying ih => exact List.mem_cons_of_mem first (ih member)

/-- Dropping at the end keeps pieces. -/
theorem mem_of_mem_dropIdleEnd {piece : Bytes} (member : piece ∈ dropIdleEnd body) :
    piece ∈ body := by
  obtain ⟨front, idles, whole, dropped, -⟩ := exists_dropIdleEnd body
  rw [dropped] at member
  rw [whole]
  exact List.mem_append_left idles member

/-- What is left after pieces that say something keeps the other components. -/
theorem filterMap_left (count : Nat) (body : List Bytes) :
    (dropIdleEnd ((dropSaying count body).dropWhile isIdle)).filterMap componentOf? =
      (body.filterMap componentOf?).drop count := by
  rw [filterMap_dropIdleEnd, filterMap_dropWhile, filterMap_dropSaying]

/-- What is left after pieces that say something keeps pieces. -/
theorem mem_of_mem_left {count : Nat} {piece : Bytes}
    (member : piece ∈ dropIdleEnd ((dropSaying count body).dropWhile isIdle)) : piece ∈ body :=
  mem_of_mem_dropSaying ((List.dropWhile_sublist isIdle).mem (mem_of_mem_dropIdleEnd member))

/-- Joined names do not start with a slash. -/
theorem head?_joinPieces (proper : ∀ name ∈ names, IsName name) :
    (joinPieces names).head? ≠ some slash := by
  cases names with
  | nil => simp [joinPieces]
  | cons name more =>
    have named := proper name List.mem_cons_self
    obtain ⟨b, rest, rfl⟩ : ∃ b rest, name = b :: rest := by
      apply List.exists_cons_of_ne_nil
      rintro rfl
      exact named.saying rfl
    have solid : b ≠ slash := by
      rintro rfl
      exact named.whole List.mem_cons_self
    cases more <;> simp [joinPieces, solid]

end Pieces

section Location

variable {path root : Path} {names : Location}

/-- Names lead below the names before. -/
theorem foldl_descend (start names : Location) :
    (names.map Component.entry).foldl descend start = start ++ names := by
  induction names generalizing start with
  | nil => exact (List.append_nil start).symm
  | cons name more ih =>
    rw [List.map_cons, List.foldl_cons, ih]
    exact List.append_assoc start [name] more

/-- The entries among the components of a path are names. -/
theorem isName_of_mem_components {name : Bytes} (member : .entry name ∈ path.components) :
    IsName name := by
  obtain ⟨start, body⟩ := parts_of_pieces path
  rcases List.mem_append.mp member with first | later
  · exact absurd (Option.mem_toList.mp first) (start name)
  · obtain ⟨piece, present, written⟩ := List.mem_filterMap.mp later
    have whole := not_mem_of_mem_pieces (body piece present)
    unfold componentOf? at written
    split at written
    · contradiction
    next saying =>
    split at written
    · exact absurd (Option.some.inj written) (by simp)
    next level =>
    obtain rfl := Component.entry.inj (Option.some.inj written)
    exact ⟨saying, level, whole⟩

/-- One more component leads from names to names, if its entry is one. -/
theorem isName_of_mem_descend {component : Component} (proper : ∀ name ∈ names, IsName name)
    (entry : ∀ name, component = .entry name → IsName name) :
    ∀ name ∈ descend names component, IsName name := by
  intro name member
  cases component with
  | root => exact proper name member
  | here => exact proper name member
  | up => exact proper name ((List.dropLast_sublist names).mem member)
  | entry last =>
    rcases List.mem_append.mp member with before | here
    · exact proper name before
    · exact entry name (congrArg _ (List.mem_singleton.mp here).symm)

/-- Components lead from names to names, if their entries are names. -/
theorem isName_of_mem_foldl {components : List Component} (proper : ∀ name ∈ names, IsName name)
    (entries : ∀ name, .entry name ∈ components → IsName name) :
    ∀ name ∈ components.foldl descend names, IsName name := by
  induction components generalizing names with
  | nil => exact proper
  | cons component more ih =>
    apply ih
    · exact isName_of_mem_descend proper fun name same => entries name (same ▸ List.mem_cons_self)
    · exact fun name later => entries name (List.mem_cons_of_mem component later)

/-- A path leads to names. -/
theorem isName_of_mem_location {name : Bytes} (member : name ∈ path.location) : IsName name :=
  isName_of_mem_foldl (by simp) (fun _ => isName_of_mem_components) name member

/-- An absolute path has the root and what its pieces write as components. -/
theorem components_of_isAbsolute (absolute : path.isAbsolute = true) :
    path.components = .root :: path.parts.body.filterMap componentOf? := by
  have start : path.parts.start = some .root := of_decide_eq_true absolute
  unfold components
  rw [start]
  rfl

/-- An absolute path has components. -/
theorem components_ne_nil (absolute : path.isAbsolute = true) : path.components ≠ [] := by
  rw [components_of_isAbsolute absolute]
  exact List.cons_ne_nil _ _

/-- Joined pieces are the pieces of a path that starts with none of its own, if the first one says
something. -/
theorem parts_joinPieces {body : List Bytes} (filled : body ≠ [])
    (whole : ∀ piece ∈ body, slash ∉ piece)
    (saying : ∀ piece, body.head? = some piece → ¬ isIdle piece = true) :
    (⟨joinPieces body⟩ : Path).parts = ⟨none, body⟩ := by
  obtain ⟨piece, more, rfl⟩ := List.exists_cons_of_ne_nil filled
  have tells := saying piece rfl
  have written : piece ≠ [] := by
    rintro rfl
    exact tells rfl
  have solid : piece ≠ Component.here.bytes := by
    rintro rfl
    exact tells rfl
  unfold parts
  rw [pieces_joinPieces filled whole]
  cases more with
  | nil => simp [solid]
  | cons second rest => simp [written, solid]

/-- What joined pieces write are the components of their path, if there is a piece in front that
says something. -/
theorem components_joinPieces {body : List Bytes} (whole : ∀ piece ∈ body, slash ∉ piece)
    (saying : ∀ piece, body.head? = some piece → ¬ isIdle piece = true) :
    (⟨joinPieces body⟩ : Path).components = body.filterMap componentOf? := by
  cases body with
  | nil => rfl
  | cons piece more =>
    unfold components
    rw [parts_joinPieces (List.cons_ne_nil piece more) whole saying]
    rfl

/-- Names with a slash behind them are the components before those that follow. -/
theorem components_joinPieces_slash (filled : names ≠ []) (proper : ∀ name ∈ names, IsName name)
    (bytes : Bytes) : (⟨joinPieces names ++ slash :: bytes⟩ : Path).components =
      names.map .entry ++ (pieces bytes).filterMap componentOf? := by
  have whole : ∀ piece ∈ names ++ pieces bytes, slash ∉ piece := by
    intro piece member
    rcases List.mem_append.mp member with name | piece
    · exact (proper _ name).whole
    · exact not_mem_of_mem_pieces piece
  have saying (piece : Bytes) (first : (names ++ pieces bytes).head? = some piece) :
      ¬ isIdle piece = true := by
    obtain ⟨name, more, rfl⟩ := List.exists_cons_of_ne_nil filled
    obtain rfl := Option.some.inj first
    exact (proper _ List.mem_cons_self).saying
  have joined := joinPieces_append filled (pieces_ne_nil bytes)
  rw [joinPieces_pieces] at joined
  rw [← joined, components_joinPieces whole saying, List.filterMap_append,
    filterMap_componentOf? proper]

/-- A path that a slash starts has the root and the pieces behind it. -/
theorem parts_slash (bytes : Bytes) :
    (⟨slash :: bytes⟩ : Path).parts = ⟨some .root, pieces bytes⟩ := by
  have cut : pieces (slash :: bytes) = [] :: pieces bytes := if_pos rfl
  obtain ⟨first, more, behind⟩ := List.exists_cons_of_ne_nil (pieces_ne_nil bytes)
  unfold parts
  rw [cut, behind]
  rfl

/-- A path that a dot and a slash start has the dot and the pieces behind it. -/
theorem parts_dot (bytes : Bytes) :
    (⟨Component.here.bytes ++ slash :: bytes⟩ : Path).parts = ⟨some .here, pieces bytes⟩ := by
  have whole : slash ∉ Component.here.bytes := by decide
  have cut : pieces (Component.here.bytes ++ slash :: bytes) =
      Component.here.bytes :: pieces bytes := by
    rw [pieces_append_slash, pieces_of_not_mem whole]
    rfl
  obtain ⟨first, more, behind⟩ := List.exists_cons_of_ne_nil (pieces_ne_nil bytes)
  unfold parts
  rw [cut, behind]
  rfl

/-- A path starts at the root, with a dot, or with a piece that says something, unless it is
empty. -/
theorem start_cases (path : Path) :
    path.parts.start = some .root ∨ path.parts.start = some .here ∨
      path.parts.start = none ∧ (path.parts.body = [[]] ∨
        ∀ piece, path.parts.body.head? = some piece → ¬ isIdle piece = true) := by
  unfold parts
  split
  · simp
  next piece _ =>
    split
    · simp
    next solid => by_cases empty : piece = [] <;> simp_all [isIdle]
  next piece _ _ _ =>
    split
    · simp
    · split <;> simp_all [isIdle]

/-- The components of a path are kept when pieces at its end that say nothing are dropped. -/
theorem components_trimmed (path : Path) : path.trimmed.components = path.components := by
  have whole : ∀ piece ∈ dropIdleEnd path.parts.body, slash ∉ piece := fun piece member =>
    not_mem_of_mem_pieces ((parts_of_pieces path).2 piece (mem_of_mem_dropIdleEnd member))
  unfold trimmed ofParts
  rcases start_cases path with start | start | ⟨start, body⟩
  · have made : (⟨slash :: joinPieces (dropIdleEnd path.parts.body)⟩ : Path).components =
        .root :: path.parts.body.filterMap componentOf? := by
      unfold components
      rw [parts_slash, filterMap_pieces_joinPieces whole, filterMap_dropIdleEnd]
      rfl
    simp only [start, components, Option.toList_some, List.singleton_append] at made ⊢
    exact made
  · have dotted : path.components = .here :: path.parts.body.filterMap componentOf? := by
      unfold components
      rw [start]
      rfl
    rw [dotted, ← filterMap_dropIdleEnd]
    cases left : dropIdleEnd path.parts.body with
    | nil =>
      rw [start]
      rfl
    | cons piece more =>
      rw [left] at whole
      rw [start]
      dsimp only
      unfold components
      rw [parts_dot, filterMap_pieces_joinPieces whole]
      rfl
  · have saying : ∀ piece, (dropIdleEnd path.parts.body).head? = some piece →
        ¬ isIdle piece = true := by
      rcases body with empty | solid
      · rw [empty]
        simp [dropIdleEnd, isIdle]
      · obtain ⟨front, idles, divided, dropped, -⟩ := exists_dropIdleEnd path.parts.body
        intro piece first
        apply solid piece
        rw [divided, List.head?_append, ← dropped, first]
        rfl
    have plain : path.components = path.parts.body.filterMap componentOf? := by
      unfold components
      rw [start]
      rfl
    rw [start, plain, ← filterMap_dropIdleEnd]
    exact components_joinPieces whole saying

/-- The pieces that are left of a path hold no slashes. -/
theorem not_mem_left (path : Path) (count : Nat) :
    ∀ piece ∈ dropIdleEnd ((dropSaying count path.parts.body).dropWhile isIdle), slash ∉ piece :=
  fun piece member =>
    not_mem_of_mem_pieces ((parts_of_pieces path).2 piece (mem_of_mem_left member))

/-- Of pieces without those at either end that say nothing the first one says something. -/
theorem head?_dropIdleEnd (body : List Bytes) {piece : Bytes}
    (first : (dropIdleEnd (body.dropWhile isIdle)).head? = some piece) :
    ¬ isIdle piece = true := by
  obtain ⟨front, idles, whole, dropped, -⟩ := exists_dropIdleEnd (body.dropWhile isIdle)
  have leads : (body.dropWhile isIdle).head? = some piece := by
    rw [whole, List.head?_append, ← dropped, first]
    rfl
  have stops := List.head?_dropWhile_not isIdle body
  rw [leads] at stops
  exact Bool.eq_false_iff.mp stops

/-- The last of pieces without those at the end that say nothing says something. -/
theorem getLast?_dropIdleEnd (body : List Bytes) {piece : Bytes}
    (last : (dropIdleEnd body).getLast? = some piece) : ¬ isIdle piece = true := by
  unfold dropIdleEnd at last
  rw [List.getLast?_reverse] at last
  have stops := List.head?_dropWhile_not isIdle body.reverse
  rw [last] at stops
  exact Bool.eq_false_iff.mp stops

/-- A path below a directory leaves the rest. -/
theorem belowOrSelf_of_below {rest : Path} (below : path.below? root = some rest) :
    path.belowOrSelf root = rest := by
  unfold belowOrSelf
  rw [below]
  rfl

/-- A path elsewhere is left as it is. -/
theorem belowOrSelf_of_elsewhere (elsewhere : path.below? root = none) :
    path.belowOrSelf root = path := by
  unfold belowOrSelf
  rw [elsewhere]
  rfl

/-- Something is left of a path below a directory when the components of the directory start it. -/
theorem isSome_below?_iff :
    (path.below? root).isSome = true ↔ root.components <+: path.components := by
  unfold below?
  rw [← List.isPrefixOf_iff_prefix]
  split <;> simp [*]

/-- What is left of a path below a directory has the components behind those of the directory. -/
theorem components_below {rest : Path} (below : path.below? root = some rest) :
    path.components = root.components ++ rest.components := by
  unfold below? at below
  split at below
  next leads =>
    obtain ⟨behind, whole⟩ := List.isPrefixOf_iff_prefix.mp leads
    obtain rfl := Option.some.inj below
    unfold after
    split
    next none =>
      rw [List.length_eq_zero_iff.mp none, List.nil_append, components_trimmed]
    next counted =>
      -- The start of a path is one component at most.
      have short : path.parts.start.toList.length ≤ root.components.length := by
        cases path.parts.start with
        | none => exact Nat.zero_le _
        | some first => exact Nat.one_le_iff_ne_zero.mpr counted
      have parts : path.components =
          path.parts.start.toList ++ path.parts.body.filterMap componentOf? := rfl
      have dropped := congrArg (List.drop root.components.length) (whole.trans parts)
      rw [List.drop_left, List.drop_append, List.drop_of_length_le short,
        List.nil_append] at dropped
      rw [components_joinPieces (not_mem_left path _) fun piece => head?_dropIdleEnd _,
        filterMap_left, ← dropped, whole]
  · contradiction

/-- What is left of a path below a directory ends with a piece that says something. -/
theorem not_isIdle_of_below {rest : Path} {piece : Bytes} (below : path.below? root = some rest)
    (start : root.components ≠ []) (written : rest.bytes ≠ [])
    (last : (pieces rest.bytes).getLast? = some piece) : ¬ isIdle piece = true := by
  unfold below? at below
  split at below
  · obtain rfl := Option.some.inj below
    unfold after at written last
    rw [if_neg (mt List.length_eq_zero_iff.mp start)] at written last
    dsimp only at written last
    rw [pieces_joinPieces (fun none => written (by rw [none]; rfl)) (not_mem_left path _)] at last
    exact getLast?_dropIdleEnd _ last
  · contradiction

/-- A path that leaves names below a directory has their components behind those of the
directory. -/
theorem components_of_below (proper : ∀ name ∈ names, IsName name)
    (below : path.below? root = some ⟨joinPieces names⟩) :
    path.components = root.components ++ names.map .entry := by
  have saying (piece : Bytes) (first : names.head? = some piece) : ¬ isIdle piece = true :=
    (proper piece (List.mem_of_mem_head? first)).saying
  rw [components_below below,
    components_joinPieces (fun name member => (proper name member).whole) saying,
    filterMap_componentOf? proper]

/-- A path that leaves names below a directory leads to these below the directory. -/
theorem location_of_below (proper : ∀ name ∈ names, IsName name)
    (below : path.below? root = some ⟨joinPieces names⟩) :
    path.location = root.location ++ names := by
  unfold location
  rw [components_of_below proper below, List.foldl_append, foldl_descend]

/-- A path to names below a directory is plain exactly when these are what is left of it. -/
theorem isPlain_iff (absolute : path.isAbsolute = true)
    (leads : path.location = root.location ++ names) :
    path.IsPlain root ↔ path.belowOrSelf root = ⟨joinPieces names⟩ := by
  have proper : ∀ name ∈ names, IsName name := fun name member =>
    isName_of_mem_location (leads ▸ List.mem_append_right _ member)
  constructor
  · intro ⟨others, named, below⟩
    have same := (location_of_below named below).symm.trans leads
    rw [belowOrSelf_of_below below, List.append_cancel_left same]
  · intro left
    cases below : path.below? root with
    | none =>
      rw [belowOrSelf_of_elsewhere below] at left
      have head := (isAbsolute_iff path).mp absolute
      rw [left] at head
      exact absurd head (head?_joinPieces proper)
    | some rest =>
      rw [belowOrSelf_of_below below] at left
      exact ⟨names, proper, left ▸ below⟩

/-- Of the spellings of a location below a directory the plain ones leave the same, and the others
leave something else. -/
theorem belowOrSelf_eq_iff {other : Path} (absolute : path.isAbsolute = true)
    (also : other.isAbsolute = true) (same : path.location = other.location)
    (plain : path.IsPlain root) :
    path.belowOrSelf root = other.belowOrSelf root ↔ other.IsPlain root := by
  obtain ⟨names, proper, below⟩ := plain
  have leads := location_of_below proper below
  have left := (isPlain_iff absolute leads).mp ⟨names, proper, below⟩
  rw [isPlain_iff also (same ▸ leads), left]
  exact eq_comm

end Location

end LicenseHeader.Path
