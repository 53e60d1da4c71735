import LicenseHeader.File.Operations

/-!
# Following names

`FileSystem.Follows` says by rules where names lead, and `FileSystem.follow_eq_ok_iff` that they
lead there. From this it follows that trees which differ in nothing but files lead every path to the
same location, and that the three ways to treat the last name differ only where it is that of a
link.
-/

namespace LicenseHeader

namespace FileTree

/-- Whether nothing but a file is at a location. -/
def IsLeaf (tree : FileTree) (place : Location) : Prop :=
  ∀ entry, tree.get? place = some entry → entry.isFile = true

/-- A location without an entry is a leaf. -/
theorem isLeaf_of_absent {tree : FileTree} {place : Location} (absent : tree.get? place = none) :
    tree.IsLeaf place := by
  intro entry there
  rw [absent] at there
  contradiction

/-- A location with a file is a leaf. -/
theorem isLeaf_of_file {tree : FileTree} {place : Location} {content : Bytes} {mode : Nat}
    (there : tree.get? place = some (.file content mode)) : tree.IsLeaf place := by
  intro entry here
  rw [there] at here
  rw [← Option.some.inj here]
  rfl

/-- Whether two trees differ in nothing but files. -/
def Alike (before after : FileTree) : Prop :=
  ∀ place, after.get? place = before.get? place ∨ (before.IsLeaf place ∧ after.IsLeaf place)

/-- Trees are alike both ways. -/
theorem Alike.symm {before after : FileTree} (alike : before.Alike after) :
    after.Alike before := by
  intro place
  rcases alike place with same | ⟨old, new⟩
  · exact .inl same.symm
  · exact .inr ⟨new, old⟩

/-- A location is a leaf of every tree with the same entry there. -/
theorem IsLeaf.of_eq {tree other : FileTree} {place : Location} (leaf : tree.IsLeaf place)
    (same : other.get? place = tree.get? place) : other.IsLeaf place := by
  intro entry there
  rw [same] at there
  exact leaf entry there

/-- Trees that are like a third are alike. -/
theorem Alike.trans {before middle after : FileTree} (first : before.Alike middle)
    (second : middle.Alike after) : before.Alike after := by
  intro place
  rcases first place with same | ⟨old, new⟩
  · rcases second place with still | ⟨leaf, last⟩
    · exact .inl (still.trans same)
    · exact .inr ⟨leaf.of_eq same.symm, last⟩
  · rcases second place with still | ⟨-, last⟩
    · exact .inr ⟨old, new.of_eq still⟩
    · exact .inr ⟨old, last⟩

/-- What is no file is there in all trees that are alike. -/
theorem Alike.keep {before after : FileTree} (alike : before.Alike after) {place : Location}
    {entry : Entry} (there : before.get? place = some entry) (other : entry.isFile = false) :
    after.get? place = some entry := by
  rcases alike place with same | ⟨leaf, -⟩
  · rw [same, there]
  · have file := leaf entry there
    rw [other] at file
    contradiction

end FileTree

/-- Bytes without a slash are one piece. -/
theorem Path.pieces_of_not_mem {bytes : Bytes} (whole : slash ∉ bytes) :
    pieces bytes = [bytes] := by
  induction bytes with
  | nil => rfl
  | cons b rest ih =>
    rw [List.mem_cons, not_or] at whole
    rw [pieces, if_neg (Ne.symm whole.1), ih whole.2]

namespace FileSystem

/-- Whether a name is that of an entry of a directory. -/
structure IsEntryName (name : Bytes) : Prop where
  /-- It says something. -/
  saying : ¬ Path.isIdle name = true
  /-- It does not climb. -/
  level : ¬ name = Component.up.bytes
  /-- It is not too long. -/
  short : ¬ nameLimit < name.length

instance (name : Bytes) : Decidable (IsEntryName name) :=
  decidable_of_iff
    (¬ Path.isIdle name = true ∧ ¬ name = Component.up.bytes ∧ ¬ nameLimit < name.length)
    ⟨fun ⟨saying, level, short⟩ => ⟨saying, level, short⟩,
      fun ⟨saying, level, short⟩ => ⟨saying, level, short⟩⟩

/-- Whether a path is written as one name of an entry. -/
def IsOneName (path : Path) : Prop :=
  IsEntryName path.bytes ∧ Path.slash ∉ path.bytes ∧ 0 ∉ path.bytes

instance (path : Path) : Decidable (IsOneName path) := inferInstanceAs (Decidable (_ ∧ _))

/-- Whether a file may be made under the names from `name` on, if that is what they are for. -/
def MayCreate (last : LastName) (name : Bytes) (rest : List Bytes) : Prop :=
  ¬ (decide (last = .created) && endsInDirectory name rest) = true

/-- Whether names lead from a directory to a location. -/
inductive Follows (tree : FileTree) (last : LastName) :
    Nat → Location → List Bytes → Location → Prop where
  /-- No name leads nowhere else. -/
  | nil {links : Nat} {directory : Location} : Follows tree last links directory [] directory
  /-- A name that says nothing stays in the directory. -/
  | idle {links : Nat} {directory goal : Location} {name : Bytes} {rest : List Bytes}
      (here : tree.get? directory = some .directory) (allowed : MayCreate last name rest)
      (nothing : Path.isIdle name = true) (more : Follows tree last links directory rest goal) :
      Follows tree last links directory (name :: rest) goal
  /-- Two dots lead to the directory above. -/
  | up {links : Nat} {directory goal : Location} {rest : List Bytes}
      (here : tree.get? directory = some .directory)
      (allowed : MayCreate last Component.up.bytes rest)
      (more : Follows tree last links directory.dropLast rest goal) :
      Follows tree last links directory (Component.up.bytes :: rest) goal
  /-- A name leads to what is no link. -/
  | enter {links : Nat} {directory goal : Location} {name : Bytes} {rest : List Bytes}
      (here : tree.get? directory = some .directory) (allowed : MayCreate last name rest)
      (named : IsEntryName name)
      (solid : ∀ target, tree.get? (directory ++ [name]) ≠ some (.link target))
      (more : Follows tree last links (directory ++ [name]) rest goal) :
      Follows tree last links directory (name :: rest) goal
  /-- The last name leads to a link that is kept. -/
  | keep {links : Nat} {directory : Location} {name : Bytes} {target : Path}
      (here : tree.get? directory = some .directory) (allowed : MayCreate last name [])
      (named : IsEntryName name)
      (there : tree.get? (directory ++ [name]) = some (.link target)) (kept : last = .kept) :
      Follows tree last links directory [name] (directory ++ [name])
  /-- A name leads to a link, and the link on. -/
  | link {links : Nat} {directory goal : Location} {name : Bytes} {rest : List Bytes}
      {target : Path} (here : tree.get? directory = some .directory)
      (allowed : MayCreate last name rest) (named : IsEntryName name)
      (there : tree.get? (directory ++ [name]) = some (.link target))
      (on : ¬ (rest = [] ∧ last = .kept))
      (more : Follows tree last links (if target.isAbsolute then [] else directory)
        (names target ++ rest) goal) :
      Follows tree last (links + 1) directory (name :: rest) goal

/-- Names that are followed to a location lead there. -/
theorem follows_of_follow {tree : FileTree} {last : LastName} {links : Nat}
    {directory goal : Location} {names : List Bytes}
    (found : follow tree last links directory names = .ok goal) :
    Follows tree last links directory names goal := by
  fun_induction follow tree last links directory names with
  | case1 links directory =>
    obtain rfl : directory = goal := Except.ok.inj found
    exact .nil
  | case2 => contradiction
  | case3 => contradiction
  | case4 links directory name rest here allowed nothing ih =>
    exact .idle here allowed nothing (ih found)
  | case5 links directory rest here allowed saying ih =>
    exact .up here allowed (ih found)
  | case6 => contradiction
  | case7 links directory name rest here allowed saying level short target there kept =>
    obtain rfl : directory ++ [name] = goal := Except.ok.inj found
    simp only [Bool.and_eq_true, List.isEmpty_iff, decide_eq_true_eq] at kept
    obtain ⟨rfl, kept⟩ := kept
    exact .keep here allowed
      ⟨saying, level, short⟩ there kept
  | case8 => contradiction
  | case9 directory name rest here allowed saying level short target there on links ih =>
    simp only [Bool.and_eq_true, List.isEmpty_iff, decide_eq_true_eq] at on
    exact .link here allowed
      ⟨saying, level, short⟩ there on (ih found)
  | case10 links directory name rest here allowed saying level short solid ih =>
    exact .enter here allowed
      ⟨saying, level, short⟩
      (fun target there => solid target there) (ih found)
  | case11 => contradiction

/-- Names that lead to a location are followed there. -/
theorem follow_of_follows {tree : FileTree} {last : LastName} {links : Nat}
    {directory goal : Location} {names : List Bytes}
    (leads : Follows tree last links directory names goal) :
    follow tree last links directory names = .ok goal := by
  induction leads with
  | nil => rw [follow]
  | idle here allowed nothing more ih =>
    rw [follow, here]
    simp only [if_neg allowed, if_pos nothing]
    exact ih
  | up here allowed more ih =>
    rw [follow, here]
    simp only [if_neg allowed]
    exact ih
  | enter here allowed named solid more ih =>
    rw [follow, here]
    simp only [if_neg allowed, if_neg named.saying, if_neg named.level, if_neg named.short]
    exact ih
  | keep here allowed named there kept =>
    rw [follow, here]
    simp only [if_neg allowed, if_neg named.saying, if_neg named.level, if_neg named.short, there]
    rw [kept]
    rfl
  | link here allowed named there on more ih =>
    rw [follow, here]
    simp only [if_neg allowed, if_neg named.saying, if_neg named.level, if_neg named.short, there]
    simp only [Bool.and_eq_true, List.isEmpty_iff, decide_eq_true_eq, if_neg on]
    exact ih

/-- Names are followed to a location exactly when they lead there. -/
theorem follow_eq_ok_iff {tree : FileTree} {last : LastName} {links : Nat}
    {directory goal : Location} {names : List Bytes} :
    follow tree last links directory names = .ok goal ↔
      Follows tree last links directory names goal :=
  ⟨follows_of_follow, follow_of_follows⟩

/-- Trees that differ in nothing but files lead names to the same location. -/
theorem Follows.of_alike {before after : FileTree} (alike : before.Alike after)
    {last : LastName} {links : Nat} {directory goal : Location} {names : List Bytes}
    (leads : Follows before last links directory names goal) :
    Follows after last links directory names goal := by
  induction leads with
  | nil => exact .nil
  | idle here allowed nothing more ih => exact .idle (alike.keep here rfl) allowed nothing ih
  | up here allowed more ih => exact .up (alike.keep here rfl) allowed ih
  | enter here allowed named solid more ih =>
    exact .enter (alike.keep here rfl) allowed named
      (fun target there => solid target (alike.symm.keep there rfl)) ih
  | keep here allowed named there kept =>
    exact .keep (alike.keep here rfl) allowed named (alike.keep there rfl) kept
  | link here allowed named there on more ih =>
    exact .link (alike.keep here rfl) allowed named (alike.keep there rfl) on ih

/-- Names whose last one is no link lead to the same location when links are followed. -/
theorem Follows.followed {tree : FileTree} {links : Nat} {directory goal : Location}
    {names : List Bytes} (leads : Follows tree .kept links directory names goal)
    (solid : ∀ target, tree.get? goal ≠ some (.link target)) :
    Follows tree .followed links directory names goal := by
  have allowed (name : Bytes) (rest : List Bytes) : MayCreate .followed name rest := by
    simp [MayCreate]
  induction leads with
  | nil => exact .nil
  | idle here _ nothing more ih => exact .idle here (allowed _ _) nothing (ih solid)
  | up here _ more ih => exact .up here (allowed _ _) (ih solid)
  | enter here _ named bare more ih => exact .enter here (allowed _ _) named bare (ih solid)
  | keep here _ named there kept => exact absurd there (solid _)
  | link here _ named there on more ih =>
    exact .link here (allowed _ _) named there (by simp) (ih solid)

/-- Names under which a file may be made lead to the same location when it is not to be made. -/
theorem Follows.of_created {tree : FileTree} {links : Nat} {directory goal : Location}
    {names : List Bytes} (leads : Follows tree .created links directory names goal) :
    Follows tree .followed links directory names goal := by
  have allowed (name : Bytes) (rest : List Bytes) : MayCreate .followed name rest := by
    simp [MayCreate]
  induction leads with
  | nil => exact .nil
  | idle here _ nothing _ ih => exact .idle here (allowed _ _) nothing ih
  | up here _ _ ih => exact .up here (allowed _ _) ih
  | enter here _ named bare _ ih => exact .enter here (allowed _ _) named bare ih
  | keep _ _ _ _ kept => contradiction
  | link here _ named there _ _ ih => exact .link here (allowed _ _) named there (by simp) ih

/-- Names lead to the same location, or to a link, when a link at the end is kept. -/
theorem Follows.kept {tree : FileTree} {last : LastName} {links : Nat}
    {directory goal : Location} {names : List Bytes}
    (leads : Follows tree last links directory names goal) :
    Follows tree .kept links directory names goal ∨
      ∃ place target, Follows tree .kept links directory names place ∧
        tree.get? place = some (.link target) := by
  have allowed (name : Bytes) (rest : List Bytes) : MayCreate .kept name rest := by
    simp [MayCreate]
  induction leads with
  | nil => exact .inl .nil
  | idle here _ nothing more ih =>
    rcases ih with ih | ⟨place, target, ih, there⟩
    · exact .inl (.idle here (allowed _ _) nothing ih)
    · exact .inr ⟨place, target, .idle here (allowed _ _) nothing ih, there⟩
  | up here _ more ih =>
    rcases ih with ih | ⟨place, target, ih, there⟩
    · exact .inl (.up here (allowed _ _) ih)
    · exact .inr ⟨place, target, .up here (allowed _ _) ih, there⟩
  | enter here _ named solid more ih =>
    rcases ih with ih | ⟨place, target, ih, there⟩
    · exact .inl (.enter here (allowed _ _) named solid ih)
    · exact .inr ⟨place, target, .enter here (allowed _ _) named solid ih, there⟩
  | keep here _ named there _ => exact .inl (.keep here (allowed _ _) named there rfl)
  | @link links directory goal name rest target here _ named there on more ih =>
    by_cases final : rest = []
    · subst final
      exact .inr ⟨_, target, .keep here (allowed _ _) named there rfl, there⟩
    · have passed : ¬ (rest = [] ∧ LastName.kept = .kept) := fun both => final both.1
      rcases ih with ih | ⟨place, aim, ih, aimed⟩
      · exact .inl (.link here (allowed _ _) named there passed ih)
      · exact .inr ⟨place, aim, .link here (allowed _ _) named there passed ih, aimed⟩

/-- A name of an entry leads to it from a directory. -/
theorem Follows.single {tree : FileTree} {links : Nat} {directory : Location} {name : Bytes}
    (here : tree.get? directory = some .directory) (named : IsEntryName name) :
    Follows tree .kept links directory [name] (directory ++ [name]) := by
  have allowed : MayCreate .kept name [] := by simp [MayCreate]
  by_cases link : ∃ target, tree.get? (directory ++ [name]) = some (.link target)
  · obtain ⟨target, there⟩ := link
    exact .keep here allowed named there rfl
  · exact .enter here allowed named (fun target there => link ⟨target, there⟩) .nil

/-- Where the names of a path start. -/
def startOf (files : FileSystem) (path : Path) : Location :=
  if path.isAbsolute then [] else files.workingDirectory

/-- Whether a path can be followed for what its bytes are. -/
structure IsPathName (path : Path) : Prop where
  /-- No byte is zero. -/
  text : ¬ path.bytes.contains 0 = true
  /-- There are bytes. -/
  present : ¬ path.bytes = []
  /-- The path is not too long. -/
  short : ¬ pathLimit < path.bytes.length

/-- A path names the location to which its names lead. -/
theorem resolve_eq_ok_iff {files : FileSystem} {last : LastName} {path : Path} {goal : Location} :
    files.resolve last path = .ok goal ↔
      IsPathName path ∧
        Follows files.tree last linkLimit (files.startOf path) (names path) goal := by
  unfold resolve startOf
  constructor
  · intro found
    split at found
    · contradiction
    next text =>
    split at found
    · contradiction
    next present =>
    split at found
    · contradiction
    next short =>
    exact ⟨⟨text, present, short⟩, follow_eq_ok_iff.mp found⟩
  · intro ⟨named, leads⟩
    rw [if_neg named.text, if_neg named.present, if_neg named.short]
    exact follow_eq_ok_iff.mpr leads

/-- A path names the same location where nothing but files differs. -/
theorem resolve_of_alike {before after : FileSystem} (alike : before.tree.Alike after.tree)
    (same : after.workingDirectory = before.workingDirectory) {last : LastName} {path : Path}
    {goal : Location} (found : before.resolve last path = .ok goal) :
    after.resolve last path = .ok goal := by
  rw [resolve_eq_ok_iff] at found ⊢
  refine ⟨found.1, ?_⟩
  rw [show after.startOf path = before.startOf path by unfold startOf; rw [same]]
  exact found.2.of_alike alike

/-- A path that names no link names the same location when links are followed. -/
theorem resolve_followed {files : FileSystem} {path : Path} {goal : Location}
    (found : files.resolve .kept path = .ok goal)
    (solid : ∀ target, files.tree.get? goal ≠ some (.link target)) :
    files.resolve .followed path = .ok goal := by
  rw [resolve_eq_ok_iff] at found ⊢
  exact ⟨found.1, found.2.followed solid⟩

/-- A path under which a file may be made names the same location when links are followed. -/
theorem resolve_of_created {files : FileSystem} {path : Path} {goal : Location}
    (found : files.resolve .created path = .ok goal) : files.resolve .followed path = .ok goal := by
  rw [resolve_eq_ok_iff] at found ⊢
  exact ⟨found.1, found.2.of_created⟩

/-- A path names the same location, or a link, when a link at its end is kept. -/
theorem resolve_kept {files : FileSystem} {last : LastName} {path : Path} {goal : Location}
    (found : files.resolve last path = .ok goal) :
    files.resolve .kept path = .ok goal ∨
      ∃ place target, files.resolve .kept path = .ok place ∧
        files.tree.get? place = some (.link target) := by
  rw [resolve_eq_ok_iff] at found
  simp only [resolve_eq_ok_iff]
  rcases found.2.kept with leads | ⟨place, target, leads, there⟩
  · exact .inl ⟨found.1, leads⟩
  · exact .inr ⟨place, target, ⟨found.1, leads⟩, there⟩

/-- A path that is one name of an entry names that entry of the working directory. -/
theorem resolve_of_isOneName {files : FileSystem} {path : Path} (one : IsOneName path)
    (here : files.tree.get? files.workingDirectory = some .directory) :
    files.resolve .kept path = .ok (files.workingDirectory ++ [path.bytes]) := by
  obtain ⟨named, whole, text⟩ := one
  have single : Path.pieces path.bytes = [path.bytes] := Path.pieces_of_not_mem whole
  have start : files.startOf path = files.workingDirectory := by
    unfold startOf Path.isAbsolute Path.parts
    rw [single]
    by_cases dot : path.bytes = Component.here.bytes <;> simp [dot]
  have present : path.bytes ≠ [] := by
    intro empty
    exact named.saying (by rw [empty]; rfl)
  have short : path.bytes.length ≤ nameLimit := Nat.le_of_not_lt named.short
  rw [resolve_eq_ok_iff, start]
  constructor
  · refine ⟨by simpa using text, present, ?_⟩
    unfold nameLimit at short
    unfold pathLimit
    omega
  · have last : names path = [path.bytes] := by
      unfold names
      rw [single]
      rfl
    rw [last]
    exact .single here named

/-- Paths that are different single names name different locations. -/
theorem resolve_ne_of_isOneName {files : FileSystem} {path other : Path}
    (here : files.tree.get? files.workingDirectory = some .directory) (one : IsOneName path)
    (another : IsOneName other) (apart : path.bytes ≠ other.bytes) (goal : Location)
    (found : files.resolve .kept path = .ok goal) : files.resolve .kept other ≠ .ok goal := by
  rw [resolve_of_isOneName one here] at found
  rw [resolve_of_isOneName another here]
  intro also
  have same := (Except.ok.inj found).trans (Except.ok.inj also).symm
  exact apart (List.singleton_inj.mp (List.append_cancel_left same))

/-- What is looked at is the entry at the location that a path names. -/
theorem lookAtLink_eq_ok_iff {files : FileSystem} {path : Path} {entry : Entry} :
    files.lookAtLink path = .ok entry ↔
      ∃ goal, files.resolve .kept path = .ok goal ∧ files.tree.get? goal = some entry := by
  unfold lookAtLink
  cases files.resolve .kept path with
  | error fault => simp [bind, Except.bind]
  | ok goal =>
    simp only [bind, Except.bind, Except.ok.injEq, exists_eq_left']
    cases files.tree.get? goal with
    | none => simp [throw, throwThe, MonadExceptOf.throw]
    | some there => simp [pure, Except.pure]

/-- A file that a path names is what is looked at when links are followed. -/
theorem lookAt_of_resolve {files : FileSystem} {path : Path} {goal : Location} {content : Bytes}
    {mode : Nat} (found : files.resolve .kept path = .ok goal)
    (there : files.tree.get? goal = some (.file content mode)) :
    files.lookAt path = .ok (.file content mode) := by
  have solid (target : Path) : files.tree.get? goal ≠ some (.link target) := by
    simp [there]
  unfold lookAt
  rw [resolve_followed found solid]
  simp only [bind, Except.bind, there]
  rfl

end FileSystem

end LicenseHeader
