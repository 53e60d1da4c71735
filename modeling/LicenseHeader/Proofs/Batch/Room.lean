import LicenseHeader.Proofs.Batch.Replacement
import LicenseHeader.Proofs.Batch.Staging
import LicenseHeader.Proofs.File.Spelling

/-!
# Where there is room for a staging file

The path of a staging file is longer than that of the file, so it can be too long. Where it is not,
it leads beside the file (`Replacement.resolve_stagingPath`). Hence a file can be replaced under all
spellings of its path or under none, as long as there is room for the staging file under all of them
or under none and the device makes no difference (`Replacement.free_of_components`).
-/

namespace LicenseHeader

namespace Path

/-- Joined pieces hold a zero byte only if one of them does. -/
theorem text_joinPieces {body : List Bytes} (text : ∀ piece ∈ body, 0 ∉ piece) :
    0 ∉ joinPieces body := by
  induction body with
  | nil => exact List.not_mem_nil
  | cons piece more ih =>
    obtain ⟨first, others⟩ := List.forall_mem_cons.mp text
    cases more with
    | nil => exact first
    | cons second rest =>
      rw [joinPieces, List.mem_append, List.mem_cons, not_or, not_or]
      · exact ⟨first, by decide, ih others⟩
      · simp

/-- Pieces hold no byte that they do not come from. -/
theorem mem_of_mem_pieces {b : UInt8} {bytes piece : Bytes} (present : piece ∈ pieces bytes)
    (inside : b ∈ piece) : b ∈ bytes := by
  induction bytes generalizing piece with
  | nil =>
    obtain rfl := List.mem_singleton.mp present
    contradiction
  | cons c rest ih =>
    rw [pieces] at present
    split at present
    · rcases List.mem_cons.mp present with rfl | later
      · contradiction
      · exact List.mem_cons_of_mem c (ih later inside)
    · cases cut : pieces rest with
      | nil =>
        rw [cut] at present
        obtain rfl := List.mem_singleton.mp present
        exact List.mem_singleton.mp inside ▸ List.mem_cons_self
      | cons first more =>
        rw [cut] at present ih
        rcases List.mem_cons.mp present with rfl | later
        · rcases List.mem_cons.mp inside with rfl | behind
          · exact List.mem_cons_self
          · exact List.mem_cons_of_mem c (ih List.mem_cons_self behind)
        · exact List.mem_cons_of_mem c (ih (List.mem_cons_of_mem first later) inside)

/-- A path that is written from parts holds a zero byte only if one of its pieces does. -/
theorem text_ofParts {parts : Parts} (start : ∀ name, parts.start ≠ some (.entry name))
    (text : ∀ piece ∈ parts.body, 0 ∉ piece) : 0 ∉ (ofParts parts).bytes := by
  have joined := text_joinPieces text
  obtain ⟨first, body⟩ := parts
  unfold ofParts
  cases first with
  | none => exact joined
  | some component =>
    cases component with
    | entry name => exact absurd rfl (start name)
    | root => simpa [slash] using joined
    | here | up =>
      cases body with
      | nil => simp [Component.bytes]
      | cons piece more => simpa [Component.bytes, slash] using joined

/-- A path without its last component holds a zero byte only if the path does. -/
theorem text_parent {path : Path} (text : 0 ∉ path.bytes) : 0 ∉ path.parent.bytes := by
  obtain ⟨start, body⟩ := parts_of_pieces path
  unfold Path.parent
  refine text_ofParts start fun piece member inside => ?_
  obtain ⟨front, idles, whole, dropped, -⟩ := exists_dropIdleEnd path.parts.body
  obtain ⟨first, others, rest, kept, -⟩ :=
    exists_dropIdleEnd (dropIdleEnd path.parts.body).dropLast
  have present : piece ∈ (dropIdleEnd path.parts.body).dropLast := by
    rw [rest]
    exact List.mem_append_left others (kept ▸ member)
  rw [dropped] at present
  have written : piece ∈ path.parts.body := by
    rw [whole]
    exact List.mem_append_left idles ((List.dropLast_sublist front).mem present)
  exact text (mem_of_mem_pieces (body piece written) inside)

/-- A path with another file name holds a zero byte only if the path or the name does. -/
theorem text_withFileName {path : Path} {name : Bytes} (text : 0 ∉ path.bytes) (also : 0 ∉ name) :
    0 ∉ (path.withFileName name).bytes := by
  have join {base : Path} (first : 0 ∉ base.bytes) : 0 ∉ (base.join ⟨name⟩).bytes := by
    unfold Path.join
    split
    · exact also
    · split
      · exact also
      · split <;> simp [first, also, slash]
  unfold withFileName
  split
  · exact join (text_parent text)
  · exact join text

end Path

namespace FileSystem

/-- A path of which the last piece is a name names an entry of a directory. -/
theorem namesNoEntry_of_last {path : Path} {piece : Bytes}
    (last : (Path.pieces path.bytes).getLast? = some piece) (saying : ¬ Path.isIdle piece = true)
    (level : ¬ piece = Component.up.bytes) : namesNoEntry path = false := by
  have written : piece ≠ [] := by
    rintro rfl
    exact saying rfl
  obtain ⟨front, whole⟩ := List.getLast?_eq_some_iff.mp ((names_getLast? path).trans last)
  unfold namesNoEntry
  rw [whole, List.filter_append]
  simp [written, saying, level]

/-- A path of which the last piece says something does not end with a slash. -/
theorem endsWithSlash_of_last {path : Path} {piece : Bytes}
    (last : (Path.pieces path.bytes).getLast? = some piece)
    (saying : ¬ Path.isIdle piece = true) : endsWithSlash path = false := by
  unfold endsWithSlash
  rw [decide_eq_false_iff_not]
  intro slashed
  obtain ⟨front, whole⟩ := List.getLast?_eq_some_iff.mp slashed
  rw [whole, Path.pieces_append_slash, show Path.pieces [] = [[]] from rfl,
    List.getLast?_concat] at last
  exact saying (Option.some.inj last ▸ rfl)

/-- A path that is too long leads nowhere. -/
theorem isOk_resolve_of_long {path : Path} (long : pathLimit < path.bytes.length)
    (files : FileSystem) (last : LastName) : (files.resolve last path).isOk = false := by
  cases found : files.resolve last path with
  | error fault => rfl
  | ok place => exact absurd long (resolve_eq_ok_iff.mp found).1.short

/-- Nothing is found under a path that is too long. -/
theorem isOk_lookAtLink_of_long {path : Path} (long : pathLimit < path.bytes.length)
    (files : FileSystem) : (files.lookAtLink path).isOk = false := by
  cases looked : files.lookAtLink path with
  | error fault => rfl
  | ok entry =>
    obtain ⟨place, found, -⟩ := lookAtLink_eq_ok_iff.mp looked
    exact absurd long (resolve_eq_ok_iff.mp found).1.short

end FileSystem

namespace Replacement

section Names

variable {path : Path} {name : Bytes}

/-- The name of a staging file holds no slash. -/
theorem not_mem_stagingName (whole : Path.slash ∉ name) :
    Path.slash ∉ name ++ Utf8.encode suffix.toList := by
  rw [List.mem_append, not_or]
  exact ⟨whole, not_mem_suffix⟩

/-- The name of a staging file is that of an entry if there is room for twelve more bytes. -/
theorem isEntryName_stagingName (short : name.length + 12 ≤ FileSystem.nameLimit) :
    FileSystem.IsEntryName (name ++ Utf8.encode suffix.toList) := by
  have length : (name ++ Utf8.encode suffix.toList).length = name.length + 12 := by
    rw [List.length_append]
    rfl
  obtain ⟨saying, level⟩ := isEntry_of_long
    (show 2 < (name ++ Utf8.encode suffix.toList).length by omega)
  exact ⟨saying, level, by omega⟩

/-- The staging file for a file with a name is beside it. -/
theorem stagingPath_of_fileName? (named : path.fileName? = some name) :
    stagingPath path = path.withFileName (name ++ Utf8.encode suffix.toList) := by
  unfold stagingPath
  rw [named]
  rfl

/-- The path of a staging file holds a zero byte only if that of the file does. -/
theorem text_stagingPath (named : path.fileName? = some name)
    (last : (Path.pieces path.bytes).getLast? = some name) (text : 0 ∉ path.bytes) :
    0 ∉ (stagingPath path).bytes := by
  rw [stagingPath_of_fileName? named]
  apply Path.text_withFileName text
  rw [List.mem_append, not_or]
  exact ⟨fun inside => text (Path.mem_of_mem_pieces (List.mem_of_getLast? last) inside),
    by decide⟩

/-- The path of a staging file has bytes. -/
theorem stagingPath_ne_nil (path : Path) : (stagingPath path).bytes ≠ [] := by
  intro empty
  have ends : (Path.pieces (stagingPath path).bytes).getLast? = some [] := by
    rw [empty]
    rfl
  exact (isEntry_stagingPath ends).1 rfl

end Names

/-- Whether a file cannot be replaced whatever the files are: the path of its staging file is too
long, or the device fails a step. -/
def failsAt (device : Device) (path : Path) : Bool :=
  let staging := stagingPath path
  decide (FileSystem.pathLimit < staging.bytes.length) || (device.opening staging).isSome ||
    (device.write staging).isSome || (device.setMode staging).isSome ||
    (device.rename staging).isSome

/-- A file cannot be replaced if the path of its staging file is too long. -/
theorem failsAt_of_long {path : Path}
    (long : FileSystem.pathLimit < (stagingPath path).bytes.length) (device : Device) :
    failsAt device path = true := by
  unfold failsAt
  simp [long]

/-- Where a file cannot be replaced whatever the files are, something obstructs it. -/
theorem isObstructed_of_failsAt {device : Device} {path : Path} (fails : failsAt device path = true)
    (files : FileSystem) : isObstructed device files path = true := by
  unfold failsAt at fails
  unfold isObstructed
  simp only [Bool.or_eq_true, decide_eq_true_eq] at fails
  rcases fails with (((tight | shut) | write) | mode) | rename
  · simp [FileSystem.isOk_resolve_of_long tight]
  · simp [shut]
  · simp [write]
  · simp [mode]
  · simp [rename]

section Located

variable {device : Device} {files : FileSystem} {path other : Path} {name : Bytes}
  {goal : Location}

/-- The path of a staging file leads beside the file when neither it nor its name is too long. -/
theorem resolve_stagingPath (named : path.fileName? = some name)
    (found : files.resolve .kept path = .ok goal)
    (solid : files.tree.get? goal ≠ some .directory)
    (short : name.length + 12 ≤ FileSystem.nameLimit)
    (room : (stagingPath path).bytes.length ≤ FileSystem.pathLimit) :
    files.resolve .kept (stagingPath path) = .ok (stagingPlace goal) := by
  have entry := isEntryName_stagingName short
  have staging := stagingPath_of_fileName? named
  have whole := not_mem_stagingName (Path.not_mem_fileName? named)
  obtain ⟨last, speaks, stays⟩ := FileSystem.getLast?_of_fileName? named found solid
  obtain ⟨front, idles, names, nothing, beside, absolute⟩ :=
    Path.exists_names_withFileName last speaks stays whole
      fun empty => entry.saying (empty ▸ rfl)
  obtain ⟨written, leads⟩ := FileSystem.resolve_eq_ok_iff.mp found
  rw [names] at leads
  have goes := leads.beside nothing speaks stays entry
  have text := text_stagingPath named last (by simpa using written.text)
  have start : files.startOf (stagingPath path) = files.startOf path := by
    unfold FileSystem.startOf
    rw [staging, absolute]
  refine FileSystem.resolve_eq_ok_iff.mpr
    ⟨⟨by simpa using text, stagingPath_ne_nil path, by omega⟩, ?_⟩
  rw [start, staging, beside]
  unfold stagingPlace
  rw [FileSystem.getLast?_of_solid named found solid]
  exact goes

/-- Where the path of a staging file leads somewhere, its name is not too long. -/
theorem short_of_resolve {last : LastName} {place : Location}
    (made : files.resolve last (stagingPath path) = .ok place) :
    (path.fileName?.getD []).length + 12 ≤ FileSystem.nameLimit := by
  obtain ⟨spot, kept⟩ : ∃ spot, files.resolve .kept (stagingPath path) = .ok spot := by
    rcases FileSystem.resolve_kept made with kept | ⟨spot, -, kept, -⟩
    · exact ⟨place, kept⟩
    · exact ⟨spot, kept⟩
  obtain ⟨piece, ends⟩ := exists_last_stagingPath path
  obtain ⟨saying, level, -, -⟩ := isEntry_stagingPath ends
  obtain ⟨-, leads⟩ := FileSystem.resolve_eq_ok_iff.mp kept
  have entry := (leads.getLast?_eq (FileSystem.names_getLast? _ ▸ ends) saying level).2
  have short := entry.short
  rw [List.length_append, List.length_append,
    show (Utf8.encode suffix.toList).length = 12 from rfl] at short
  omega

/-- What does not obstruct a file under one spelling of its path does not do so under another, unless
replacing it there fails whatever the files are. -/
theorem free_of_components (same : path.components = other.components)
    (named : path.fileName? = some name) (also : files.resolve .kept other = .ok goal)
    (solid : files.tree.get? goal ≠ some .directory)
    (unlinked : ∀ target, files.tree.get? (stagingPlace goal) ≠ some (.link target))
    (free : isObstructed device files path = false) (able : failsAt device other = false) :
    isObstructed device files other = false := by
  have likewise : other.fileName? = some name := by
    unfold Path.fileName? at named ⊢
    rwa [← same]
  have creatable := isOk_of_free free
  unfold failsAt at able
  simp only [Bool.or_eq_false_iff, decide_eq_false_iff_not, not_lt] at able
  obtain ⟨⟨⟨⟨room, opens⟩, write⟩, mode⟩, rename⟩ := able
  cases made : files.resolve .created (stagingPath path) with
  | error fault =>
    rw [made] at creatable
    contradiction
  | ok place =>
    have short := short_of_resolve made
    rw [named, Option.getD_some] at short
    have kept := resolve_stagingPath likewise also solid short room
    have opened := made_of_kept kept unlinked
    obtain ⟨piece, ends⟩ := Path.exists_last (stagingPath other).bytes
    obtain ⟨saying, level, -, -⟩ := isEntry_stagingPath ends
    obtain ⟨last, speaks, stays⟩ := FileSystem.getLast?_of_fileName? likewise also solid
    unfold isObstructed
    simp only [opened, opens, write, mode, rename, FileSystem.namesNoEntry_of_last ends saying level,
      FileSystem.namesNoEntry_of_last last speaks stays,
      FileSystem.endsWithSlash_of_last last speaks]
    rfl

end Located

end Replacement

end LicenseHeader
