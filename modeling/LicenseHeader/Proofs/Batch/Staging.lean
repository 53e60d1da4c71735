import LicenseHeader.Batch.Replacement
import LicenseHeader.Candidate
import LicenseHeader.Proofs.File.Sibling
import LicenseHeader.Proofs.Text.Utf8
import Mathlib

/-!
# The names of staging files

The name of a staging file is that of the file with more behind it. So it is never the location of
the file itself (`Replacement.staging_ne`), and as no style has a suffix that ends as these names do
it is never a candidate (`Candidate.ofPath?_stagingPath`). Candidates that lead to one file have one
style (`Candidate.style_eq`).
-/

namespace LicenseHeader

namespace Style

/-- Every suffix of a style ends in a letter, and not in p. -/
theorem getLast?_suffixes : ∀ rule ∈ suffixes,
    rule.1.toList.getLast? ≠ none ∧ rule.1.toList.getLast? ≠ some 'p' := by
  decide +kernel

/-- A name that ends in the letter p has no style. -/
theorem ofFileName?_of_last {name : Text} (final : name.getLast? = some 'p') :
    ofFileName? name = none := by
  obtain ⟨front, rfl⟩ := List.getLast?_eq_some_iff.mp final
  have lowered : lower (front ++ ['p']) = lower front ++ ['p'] := by
    unfold lower
    rw [List.flatMap_append]
    rfl
  have unmatched : suffixes.find? (fun rule => rule.1.toList.isSuffixOf (lower front ++ ['p'])) =
      none := by
    rw [List.find?_eq_none]
    intro rule member ends
    obtain ⟨written, other⟩ := getLast?_suffixes rule member
    obtain ⟨start, whole⟩ := List.isSuffixOf_iff_suffix.mp ends
    have same := congrArg List.getLast? whole
    rw [List.getLast?_append, List.getLast?_concat] at same
    cases last : rule.1.toList.getLast? with
    | none => exact written last
    | some c =>
      rw [last] at same other
      exact other same
  unfold ofFileName?
  rw [lowered, unmatched]
  rfl

/-- Bytes that end in the letter p are no name with a style. -/
theorem ofBytes_of_last {name : Bytes} (final : name.getLast? = some 0x70) :
    (Utf8.decode name).toOption.bind ofFileName? = none := by
  cases decoded : Utf8.decode name with
  | error fault => rfl
  | ok text =>
    have bytes := Utf8.decode_eq_ok_iff.mp decoded
    have letter := Utf8.getLast?_of_encode (bytes.symm ▸ final) (by decide)
    exact ofFileName?_of_last letter

end Style

namespace Replacement

/-- The bytes of the suffix hold no slash. -/
theorem not_mem_suffix : Path.slash ∉ Utf8.encode suffix.toList := by
  decide +kernel

/-- The path of a staging file ends in the name of the file and the suffix. -/
theorem exists_last_stagingPath (path : Path) :
    ∃ piece, (Path.pieces (stagingPath path).bytes).getLast? =
      some (piece ++ (path.fileName?.getD [] ++ Utf8.encode suffix.toList)) := by
  have whole : Path.slash ∉ path.fileName?.getD [] ++ Utf8.encode suffix.toList := by
    rw [List.mem_append, not_or]
    refine ⟨?_, not_mem_suffix⟩
    cases named : path.fileName? with
    | none => exact List.not_mem_nil
    | some name => exact Path.not_mem_fileName? named
  obtain ⟨front, bytes⟩ := Path.exists_withFileName path
    (path.fileName?.getD [] ++ Utf8.encode suffix.toList)
  unfold stagingPath
  rw [bytes]
  exact Path.exists_last_append whole front

/-- What is longer than two bytes says something and does not climb. -/
theorem isEntry_of_long {name : Bytes} (long : 2 < name.length) :
    ¬ Path.isIdle name = true ∧ ¬ name = Component.up.bytes := by
  refine ⟨fun idle => ?_, fun climbs => ?_⟩
  · simp only [Path.isIdle, Bool.or_eq_true, decide_eq_true_eq] at idle
    rcases idle with rfl | rfl
    · contradiction
    · exact absurd long (by decide)
  · rw [climbs] at long
    exact absurd long (by decide)

/-- The last piece of the path of a staging file says something, does not climb, and is longer than
the name of the file by the suffix. -/
theorem isEntry_stagingPath {path : Path} {last : Bytes}
    (ends : (Path.pieces (stagingPath path).bytes).getLast? = some last) :
    ¬ Path.isIdle last = true ∧ ¬ last = Component.up.bytes ∧
      (path.fileName?.getD []).length < last.length ∧ last.getLast? = some 0x70 := by
  obtain ⟨piece, found⟩ := exists_last_stagingPath path
  rw [ends] at found
  have length : last.length =
      piece.length + ((path.fileName?.getD []).length + 12) := by
    rw [Option.some.inj found, List.length_append, List.length_append]
    rfl
  obtain ⟨saying, level⟩ := isEntry_of_long (show 2 < last.length by omega)
  refine ⟨saying, level, by omega, ?_⟩
  rw [Option.some.inj found, List.getLast?_append, List.getLast?_append]
  rfl

/-- A staging file can be made where its path leads, unless there is a link. -/
theorem made_of_kept {files : FileSystem} {path : Path} {place : Location}
    (found : files.resolve .kept (stagingPath path) = .ok place)
    (solid : ∀ target, files.tree.get? place ≠ some (.link target)) :
    files.resolve .created (stagingPath path) = .ok place := by
  obtain ⟨last, ends⟩ := Path.exists_last (stagingPath path).bytes
  obtain ⟨saying, level, -, -⟩ := isEntry_stagingPath ends
  rw [FileSystem.resolve_eq_ok_iff] at found ⊢
  exact ⟨found.1, found.2.created (FileSystem.names_getLast? _ ▸ ends) saying level solid⟩

/-- A staging file is never at the location of a path with a file name. -/
theorem staging_ne {files : FileSystem} {path : Path} {name : Bytes} {goal place : Location}
    (named : path.fileName? = some name) (aim : goal.getLast? = some name)
    (found : files.resolve .kept (stagingPath path) = .ok place) : place ≠ goal := by
  obtain ⟨last, ends⟩ := Path.exists_last (stagingPath path).bytes
  obtain ⟨saying, level, longer, -⟩ := isEntry_stagingPath ends
  have staged := FileSystem.getLast?_of_resolve found ends saying level
  rintro rfl
  rw [staged] at aim
  rw [named, Option.some.inj aim] at longer
  exact Nat.lt_irrefl _ longer

/-- Where the staging file for the file at a location goes. -/
def stagingPlace (goal : Location) : Location :=
  goal.dropLast ++ [goal.getLast?.getD [] ++ Utf8.encode suffix.toList]

/-- A staging file does not go to the location of the file. -/
theorem stagingPlace_ne (goal : Location) : stagingPlace goal ≠ goal := by
  intro same
  have last := congrArg (fun place => (place.getLast?.getD []).length) same
  unfold stagingPlace at last
  simp only [List.getLast?_concat, Option.getD_some, List.length_append] at last
  rw [show (Utf8.encode suffix.toList).length = 12 from rfl] at last
  omega

/-- Staging files for files at two locations go to two locations. -/
theorem stagingPlace_inj {goal other : Location} (below : goal ≠ []) (also : other ≠ [])
    (same : stagingPlace goal = stagingPlace other) : goal = other := by
  unfold stagingPlace at same
  obtain ⟨front, ends⟩ := List.append_inj' same rfl
  have last := List.append_cancel_right (List.singleton_inj.mp ends)
  rw [List.getLast?_eq_some_getLast below, List.getLast?_eq_some_getLast also, Option.getD_some,
    Option.getD_some] at last
  rw [← List.dropLast_concat_getLast below, front, last, List.dropLast_concat_getLast]

/-- The path of a staging file leads to where the staging file goes. -/
theorem eq_stagingPlace {files : FileSystem} {path : Path} {name : Bytes}
    {goal place : Location} (named : path.fileName? = some name)
    (found : files.resolve .kept path = .ok goal)
    (other : files.tree.get? goal ≠ some .directory)
    (staged : files.resolve .kept (stagingPath path) = .ok place) : place = stagingPlace goal := by
  have last := FileSystem.getLast?_of_solid named found other
  have long : 2 < (name ++ Utf8.encode suffix.toList).length := by
    rw [List.length_append, show (Utf8.encode suffix.toList).length = 12 from rfl]
    omega
  have whole : Path.slash ∉ name ++ Utf8.encode suffix.toList := by
    rw [List.mem_append, not_or]
    exact ⟨Path.not_mem_fileName? named, not_mem_suffix⟩
  obtain ⟨saying, level⟩ := isEntry_of_long long
  unfold stagingPath at staged
  rw [named] at staged
  unfold stagingPlace
  rw [last]
  exact FileSystem.resolve_withFileName named found other whole saying level staged

end Replacement

namespace Candidate

section Located

variable {files : FileSystem} {c d : Candidate} {goal : Location}

/-- The last name of the location to which a candidate leads has its style, when there is something
else than a directory. -/
theorem exists_name (made : ofPath? c.path = some c) (found : files.resolve .kept c.path = .ok goal)
    (other : files.tree.get? goal ≠ some .directory) :
    ∃ name, c.path.fileName? = some name ∧ goal.getLast? = some name ∧
      (Utf8.decode name).toOption.bind Style.ofFileName? = some c.style := by
  have style : Style.ofPath? c.path = some c.style := by
    obtain ⟨style, found, same⟩ := Option.map_eq_some_iff.mp made
    rw [found, ← congrArg Candidate.style same]
  unfold Style.ofPath? at style
  cases named : c.path.fileName? with
  | none =>
    rw [named] at style
    contradiction
  | some name =>
    rw [named] at style
    exact ⟨name, rfl, FileSystem.getLast?_of_solid named found other, style⟩

/-- Candidates that lead to one file have one style. -/
theorem style_eq (first : ofPath? c.path = some c) (second : ofPath? d.path = some d)
    (found : files.resolve .kept c.path = .ok goal)
    (also : files.resolve .kept d.path = .ok goal)
    (other : files.tree.get? goal ≠ some .directory) : c.style = d.style := by
  obtain ⟨name, -, last, style⟩ := exists_name first found other
  obtain ⟨again, -, ends, same⟩ := exists_name second also other
  rw [last] at ends
  rw [← Option.some.inj ends, style] at same
  exact Option.some.inj same

/-- A candidate does not lead to where a staging file goes, unless there is a directory. -/
theorem ne_stagingPlace (made : ofPath? c.path = some c)
    (found : files.resolve .kept c.path = .ok goal)
    (other : files.tree.get? goal ≠ some .directory) (place : Location) :
    goal ≠ Replacement.stagingPlace place := by
  rintro rfl
  obtain ⟨name, -, last, style⟩ := exists_name made found other
  have final : name.getLast? = some 0x70 := by
    unfold Replacement.stagingPlace at last
    rw [List.getLast?_concat] at last
    rw [← Option.some.inj last, List.getLast?_append]
    rfl
  rw [Style.ofBytes_of_last final] at style
  contradiction

end Located

end Candidate

end LicenseHeader
