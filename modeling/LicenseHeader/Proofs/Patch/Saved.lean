import LicenseHeader.Proofs.Batch.Patched
import LicenseHeader.Proofs.Header.Convergence
import LicenseHeader.Proofs.Patch.Rendered

/-!
# The patches of a run in one file

Patches that are saved one after another stand in the patch file one after another. Each of them
ends with a line break, so that the file, cut where lines end, has the lines of each patch in turn.

Not every line break is a line feed. A patch whose last row shows a line that ends with a carriage
return alone ends with this carriage return, and the patch after it does not start behind a line
feed. `PatchOutput.saved_apart` says that it does behind every other patch.
-/

namespace LicenseHeader

namespace Patch

/-- The rows that the patch between two texts shows. -/
def shownRows (old new : Text) : List Row :=
  (hunks (script old new)).flatMap (rowsOf (sidesOf old new))

/-- Whether the last line that the patch between two texts shows ends with a carriage return. -/
def endsInReturn (old new : Text) : Bool :=
  (shownRows old new).getLast?.any fun row => row.line.getLast? = some '\r'

/-- A patch without lines that end with a carriage return does not end with one. -/
theorem endsInReturn_of_plain {old new : Text}
    (plain : ∀ line ∈ Text.lines old ++ Text.lines new, line.getLast? ≠ some '\r') :
    endsInReturn old new = false := by
  unfold endsInReturn
  cases last : (shownRows old new).getLast? with
  | none => rfl
  | some row =>
    obtain ⟨blocks, -, member⟩ := List.mem_flatMap.mp (List.mem_of_getLast? last)
    have taken := line_mem_of_mem_rowsOf member
    simpa using plain row.line (List.mem_append.mpr taken)

/-- A printed row ends with a carriage return when its line does, and else with a line feed. -/
theorem getLast?_printed {row : Row} (cut : row.Cut) : row.printed.flatten.getLast? =
    some (if row.line.getLast? = some '\r' then '\r' else '\n') := by
  obtain ⟨ended, printed⟩ | ⟨unbroken, printed⟩ := printed_eq cut
  · obtain ⟨c, last, breaks⟩ := ended.getLast?
    rw [printed, List.flatten_singleton, List.getLast?_cons, last]
    obtain rfl | rfl := Text.isBreak_iff.mp breaks <;> rfl
  · have plain : row.line.getLast? ≠ some '\r' := fun last =>
      absurd (unbroken '\r' (List.mem_of_getLast? last)) (by decide)
    rw [printed, if_neg plain, List.flatten_cons, List.flatten_singleton, List.getLast?_append]
    rfl

/-- A hunk ends as its last row does. -/
theorem getLast?_hunkText {sides : Sides} {blocks : List Block} {row : Row}
    (last : (rowsOf sides blocks).getLast? = some row) (cut : row.Cut) :
    (hunkText sides blocks).getLast? = row.printed.flatten.getLast? := by
  have some : blocks ≠ [] := by
    rintro rfl
    simp [rowsOf] at last
  obtain ⟨front, rows⟩ := List.getLast?_eq_some_iff.mp last
  have head := List.head?_eq_some_head some
  have tail := List.getLast?_eq_some_getLast some
  rw [← flatten_hunkLines]
  simp [hunkLines, head, tail, rows, getLast?_printed cut]

/-- A patch ends with a carriage return when the last line that it shows does, and else with a line
feed. -/
theorem getLast?_render (name : Text) {old new : Text} (differ : old ≠ new) :
    (render name old new).getLast? = some (if endsInReturn old new then '\r' else '\n') := by
  have changed := mt hunks_script_eq_nil_iff.mp differ
  obtain ⟨placed, tells, -⟩ := exists_tells old new
  obtain ⟨front, blocks, whole⟩ := (List.eq_nil_or_concat' _).resolve_left changed
  rw [whole, ← List.forall₂_reverse_iff, List.reverse_concat] at tells
  obtain ⟨hunk, others, told, -⟩ := List.forall₂_cons_left_iff.mp tells
  obtain ⟨shown, member, -⟩ := told.changed
  have filled : rowsOf (sidesOf old new) blocks ≠ [] :=
    List.ne_nil_of_mem (told.rows ▸ member)
  have last := List.getLast?_eq_some_getLast filled
  have cut := cut_of_mem_rowsOf (List.getLast_mem filled)
  obtain ⟨before, text⟩ : ∃ before,
      render name old new = before ++ hunkText (sidesOf old new) blocks := by
    rw [render_eq name changed, whole]
    simp only [List.flatMap_append, List.flatMap_singleton, ← List.append_assoc]
    exact ⟨_, rfl⟩
  rw [text, List.getLast?_append, getLast?_hunkText last cut, getLast?_printed cut]
  simp [endsInReturn, shownRows, whole, last]

end Patch

namespace PatchOutput

/-- A file to change: its name, the text that it has and another one. -/
structure Change where
  /-- The name of the file. -/
  name : Path
  /-- The text that the file has. -/
  old : Text
  /-- The text that takes its place. -/
  new : Text
  deriving DecidableEq

namespace Change

/-- The patch of a change. -/
def patch (change : Change) : Text := render change.name change.old change.new

/-- The line that the patch of a change starts with. -/
def title (change : Change) : Text :=
  "--- a/".toList ++ Utf8.decodeLossy change.name.bytes ++ ['\n']

/-- Whether the patch of a change ends with a carriage return. -/
def endsInReturn (change : Change) : Bool := Patch.endsInReturn change.old change.new

/-- A patch starts with its title. -/
theorem title_prefix_patch {change : Change} (differ : change.old ≠ change.new) :
    change.title <+: change.patch := by
  unfold title patch render
  rw [Patch.render_eq _ (mt Patch.hunks_script_eq_nil_iff.mp differ)]
  exact ⟨_, by simp; rfl⟩

/-- A patch does not start with a line break. -/
theorem head?_patch {change : Change} (differ : change.old ≠ change.new) :
    change.patch.head? = some '-' := by
  obtain ⟨rest, text⟩ := title_prefix_patch differ
  rw [← text]
  rfl

/-- A patch ends with a line break, which may be a carriage return. -/
theorem getLast?_patch {change : Change} (differ : change.old ≠ change.new) :
    change.patch.getLast? = some (if change.endsInReturn then '\r' else '\n') :=
  Patch.getLast?_render _ differ

end Change

/-- The patches of changes, one after another. -/
def patchesOf (changes : List Change) : Text := changes.flatMap Change.patch

/-- The files with the patches of changes added to the patch file, one after another. -/
def saveAll (output : PatchOutput) (files : FileSystem) (changes : List Change) :
    Except Failure FileSystem :=
  changes.foldlM (fun now change => output.save now change.patch) files

/-- Whether what follows a text stands at the start or behind a line feed. -/
def AtLine (front : Text) : Prop := front = [] ∨ front.getLast? = some '\n'

section Sequence

variable {changes : List Change}

/-- Patches, one after another, have the lines of each patch in turn. -/
theorem lines_patchesOf (differ : ∀ change ∈ changes, change.old ≠ change.new) :
    Text.lines (patchesOf changes) = changes.flatMap fun change => Text.lines change.patch := by
  induction changes with
  | nil => rfl
  | cons change more ih =>
    obtain ⟨first, others⟩ := List.forall_mem_cons.mp differ
    have ends : ∀ c ∈ change.patch.getLast?, Text.isBreak c = true := by
      rw [Change.getLast?_patch first]
      rintro c ⟨⟩
      split <;> rfl
    have apart : (patchesOf more).head? ≠ some '\n' := by
      cases more with
      | nil => simp [patchesOf]
      | cons second rest =>
        simp [patchesOf, List.head?_append, Change.head?_patch (others second List.mem_cons_self)]
    rw [List.flatMap_cons, ← ih others]
    exact Text.lines_append_of_break ends apart

/-- What follows patches stands at the start or behind a line feed exactly when the last of them
does not end with a carriage return. -/
theorem atLine_patchesOf_iff (differ : ∀ change ∈ changes, change.old ≠ change.new) :
    AtLine (patchesOf changes) ↔ ∀ last ∈ changes.getLast?, last.endsInReturn = false := by
  obtain rfl | ⟨front, last, rfl⟩ := List.eq_nil_or_concat' changes
  · simp [AtLine, patchesOf]
  · have ends := Change.getLast?_patch (differ last (by simp))
    have some : last.patch ≠ [] := by
      intro none
      rw [none] at ends
      contradiction
    simp [AtLine, patchesOf, some, ends]

variable {output : PatchOutput} {start now : FileSystem} {path : Path} {place : Location}
  {content : Bytes} {mode : Nat} {added : List Bytes}

/-- Every patch is added, in its turn. -/
theorem extended_saveAll (aim : output.saved = some path)
    (opens : start.Opens path place content mode)
    (extended : start.Extended now place content mode added) (changes : List Change) :
    ∃ after, output.saveAll now changes = .ok after ∧
      start.Extended after place content mode
        (added ++ (changes.map Change.patch).map Utf8.encode) := by
  induction changes generalizing now added with
  | nil => exact ⟨now, rfl, by rwa [List.map_nil, List.map_nil, List.append_nil]⟩
  | cons change more ih =>
    obtain ⟨next, saves, further⟩ := extended.save opens aim change.patch
    obtain ⟨after, all, whole⟩ := ih further
    refine ⟨after, ?_, by simpa using whole⟩
    unfold saveAll at all ⊢
    rw [List.foldlM_cons, saves]
    exact all

end Sequence

/-- Patches that are saved to a file that holds nothing, one after another, stand in it one after
another, and the file, cut where lines end, has the lines of each patch in turn. The title of a
patch starts the file or stands behind a line feed exactly when the patch before it does not end
with a carriage return. -/
theorem saved_apart {output : PatchOutput} {files : FileSystem} {path : Path} {place : Location}
    {mode : Nat} (aim : output.saved = some path) (opens : files.Opens path place [] mode)
    {changes : List Change} (differ : ∀ change ∈ changes, change.old ≠ change.new) :
    ∃ after, output.saveAll files changes = .ok after ∧
      after.Opens path place (Utf8.encode (patchesOf changes)) mode ∧
      Text.lines (patchesOf changes) = (changes.flatMap fun change => Text.lines change.patch) ∧
      ∀ front change back, changes = front ++ change :: back →
        patchesOf front ++ change.title <+: patchesOf changes ∧
          (AtLine (patchesOf front) ↔ ∀ last ∈ front.getLast?, last.endsInReturn = false) := by
  obtain ⟨after, saves, extended⟩ :=
    extended_saveAll aim opens (.refl files place [] mode) changes
  have opens := extended.opens opens
  rw [List.nil_append, List.nil_append, ← Utf8.encode_flatten, ← List.flatMap_def] at opens
  refine ⟨after, saves, opens, lines_patchesOf differ, ?_⟩
  rintro front change back rfl
  constructor
  · have title := Change.title_prefix_patch (differ change (by simp))
    unfold patchesOf
    rw [List.flatMap_append, List.flatMap_cons]
    exact List.prefix_append_right_inj _ |>.mpr (title.trans (List.prefix_append ..))
  · exact atLine_patchesOf_iff fun other member => differ other (List.mem_append_left _ member)

/-- Files without a patch file. -/
def noFiles : FileSystem where
  tree := ⟨[]⟩
  workingDirectory := []

/-- Patches are saved and not shown. -/
def savingOutput : PatchOutput := ⟨false, some (.ofString "out.patch")⟩

/-- The patch file can be made. -/
theorem opens_noFiles :
    noFiles.Opens (.ofString "out.patch") [Utf8.encode "out.patch".toList] [] Entry.fileMode :=
  ⟨by cbv, .inr ⟨by cbv, rfl, rfl⟩⟩

/-- Two changes, of which only the last has lines that end with a carriage return alone. -/
def mixedChanges : List Change :=
  [⟨.ofString "a.c", "x\r\ny".toList, "x\r\nz".toList⟩,
    ⟨.ofString "b.c", "x\r".toList, "#\nx\r".toList⟩]

/-- The title of the second patch starts a line behind the note that ends the first. -/
theorem saved_apart_mixed :
    noFiles.Opens (.ofString "out.patch") [Utf8.encode "out.patch".toList] [] Entry.fileMode ∧
      (∀ change ∈ mixedChanges, change.old ≠ change.new) ∧
      ∃ first second : Change, mixedChanges = [first, second] ∧
        (∃ after, savingOutput.saveAll noFiles mixedChanges = .ok after ∧
          after.Opens (.ofString "out.patch") [Utf8.encode "out.patch".toList]
            (Utf8.encode (patchesOf mixedChanges)) Entry.fileMode) ∧
        first.patch ++ second.title <+: patchesOf mixedChanges ∧ AtLine first.patch := by
  have differ : ∀ change ∈ mixedChanges, change.old ≠ change.new := by decide
  have plain : Patch.endsInReturn "x\r\ny".toList "x\r\nz".toList = false :=
    Patch.endsInReturn_of_plain (by decide)
  obtain ⟨after, saves, opens, -, apart⟩ :=
    saved_apart (show savingOutput.saved = some (.ofString "out.patch") from rfl) opens_noFiles
      differ
  obtain ⟨title, starts⟩ := apart [_] _ [] rfl
  have first (change : Change) : patchesOf [change] = change.patch := by simp [patchesOf]
  rw [first] at title starts
  refine ⟨opens_noFiles, differ, _, _, rfl, ⟨after, saves, opens⟩, title, starts.mpr ?_⟩
  rintro last ⟨⟩
  exact plain

/-! ## A title behind a carriage return

A line is put in front of a line that ends with a carriage return. -/

/-- The line that stays is the last one that the patch shows. -/
theorem hunks_return : Patch.hunks (Patch.script "x\r".toList "#\nx\r".toList) =
    [[⟨false, 0, 0, 0, 1⟩, ⟨true, 0, 1, 1, 1⟩]] := by
  have old : Text.lines "x\r".toList = ["x\r".toList] := by decide
  have new : Text.lines "#\nx\r".toList = ["#\n".toList, "x\r".toList] := by decide
  have edits : Patch.scriptFrom 0 0 ["x\r".toList] ["#\n".toList, "x\r".toList] =
      [⟨.insert, 0, 0, 1⟩, ⟨.keep, 0, 1, 1⟩] := by
    have parts : Patch.trim ["x\r".toList] ["#\n".toList, "x\r".toList] =
        ⟨0, [], ["#\n".toList], 1⟩ := rfl
    rw [Patch.scriptFrom_eq, parts]
    rfl
  have tidy : Patch.script "x\r".toList "#\nx\r".toList =
      [⟨.insert, 0, 0, 1⟩, ⟨.keep, 0, 1, 1⟩] := by
    unfold Patch.script
    simp only [old, new, edits]
    cbv
  rw [tidy]
  decide

/-- The patch that puts a line in front of the one of the file with a name. -/
def returnPatch (name : String) : Text :=
  ("--- a/" ++ name ++ "\n+++ b/" ++ name ++ "\n@@ -1 +1,2 @@\n+#\n x\r").toList

/-- The same line is put in front of two files. -/
def returnChanges : List Change :=
  ["a.c", "b.c"].map fun name => ⟨.ofString name, "x\r".toList, "#\nx\r".toList⟩

/-- The patches of both files. -/
theorem patches_returnChanges :
    returnChanges.map Change.patch = ["a.c", "b.c"].map returnPatch := by
  have changed : Patch.hunks (Patch.script "x\r".toList "#\nx\r".toList) ≠ [] := by
    rw [hunks_return]
    simp
  unfold returnChanges
  simp only [List.map_cons, List.map_nil, Change.patch, render, Patch.render_eq _ changed,
    hunks_return]
  decide +kernel

/-- The title of the second patch stands behind the carriage return that ends the first. -/
theorem title_behind_return :
    noFiles.Opens (.ofString "out.patch") [Utf8.encode "out.patch".toList] [] Entry.fileMode ∧
      (∀ change ∈ returnChanges, '\n' ∉ Utf8.decodeLossy change.name.bytes ∧
        change.old ≠ change.new) ∧
      ∃ after, savingOutput.saveAll noFiles returnChanges = .ok after ∧
        after.read (.ofString "out.patch") =
          .ok (Utf8.encode (returnPatch "a.c" ++ returnPatch "b.c")) ∧
        ¬ AtLine (returnPatch "a.c") := by
  obtain ⟨after, saves, extended⟩ :=
    extended_saveAll (show savingOutput.saved = some (.ofString "out.patch") from rfl)
      opens_noFiles (.refl noFiles _ _ _) returnChanges
  rw [patches_returnChanges] at extended
  refine ⟨opens_noFiles, ?_, after, saves, ?_, ?_⟩
  · decide +kernel
  · simpa [Utf8.encode_append] using extended.read_eq opens_noFiles (by simp)
  · unfold AtLine
    decide

end PatchOutput

end LicenseHeader
