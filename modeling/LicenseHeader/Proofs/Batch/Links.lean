import LicenseHeader.Proofs.Batch.Atomic
import LicenseHeader.Proofs.Batch.Checked
import LicenseHeader.Proofs.Batch.Frame
import LicenseHeader.Proofs.Header.NormalForm

/-!
# Symbolic links and the header

Reading follows a symbolic link at the end of a path, and renaming does not. So a header that is
applied at a link is read through the link and takes its place, and a link where the staging file
goes is gone as well. `faithful_iff_sparesLinks` says exactly when every link is kept and the header
comes to the file that was read: when neither the path nor that of its staging file is a link. A
batch of which this is true for every candidate keeps all links, and one that only checks does so
always (`Batch.alike_process`).
-/

namespace LicenseHeader

open FileSystem Replacement

namespace FileSystem

/-- Whether the entry that a path names is no symbolic link. -/
def IsNoLink (files : FileSystem) (path : Path) : Prop :=
  ∀ target, files.lookAtLink path ≠ .ok (.link target)

/-- Whether every symbolic link is still there and leads to the same path. -/
def KeepsLinks (before after : FileSystem) : Prop :=
  ∀ place target, before.tree.get? place = some (.link target) →
    after.tree.get? place = some (.link target)

/-- Where nothing but files differs all links are kept. -/
theorem keepsLinks_of_alike {before after : FileSystem} (alike : before.tree.Alike after.tree) :
    before.KeepsLinks after :=
  fun _ _ there => alike.keep there rfl

/-- A path that names no link names none where nothing but files differs. -/
theorem IsNoLink.of_alike {before after : FileSystem} {path : Path}
    (solid : before.IsNoLink path) (alike : before.tree.Alike after.tree)
    (same : after.workingDirectory = before.workingDirectory) : after.IsNoLink path := by
  intro target present
  obtain ⟨place, kept, there⟩ := lookAtLink_eq_ok_iff.mp present
  exact solid target (lookAtLink_eq_ok_iff.mpr
    ⟨place, resolve_of_alike alike.symm same.symm kept, alike.symm.keep there rfl⟩)

/-- No link is at the location of a path that names none. -/
theorem IsNoLink.get?_ne {files : FileSystem} {path : Path} {place : Location}
    (solid : files.IsNoLink path) (kept : files.resolve .kept path = .ok place) (target : Path) :
    files.tree.get? place ≠ some (.link target) :=
  fun there => solid target (lookAtLink_eq_ok_iff.mpr ⟨place, kept, there⟩)

end FileSystem

namespace Replacement

variable {device : Device} {files after : FileSystem} {path : Path} {content : Bytes}

/-- Where a replacement that succeeds has moved the staging file, in terms of the files when it was
ready. -/
structure Swapped (files settled after : FileSystem) (path : Path) (origin goal : Location)
    (entry : Entry) : Prop where
  /-- The location that the path of the staging file names. -/
  staged : files.resolve .kept (stagingPath path) = .ok origin
  /-- The location that the path names. -/
  found : files.resolve .kept path = .ok goal
  /-- These are two locations. -/
  apart : origin ≠ goal
  /-- Up to renaming nothing but files differs. -/
  alike : files.tree.Alike settled.tree
  /-- What is where the staging file goes when it is renamed. -/
  ready : settled.tree.get? origin = some entry
  /-- No directory is replaced. -/
  free : settled.tree.get? goal ≠ some .directory
  /-- What was there comes to the path and leaves its location. -/
  entries : ∀ place, after.tree.get? place =
    if place = goal then some entry else if place = origin then none
    else settled.tree.get? place
  /-- The working directory stays where it is. -/
  workingDirectory : after.workingDirectory = files.workingDirectory

/-- A replacement that succeeds has moved what was where the staging file goes. -/
theorem swapped_replace (done : (replace device files path content).fault = none) :
    ∃ written settled origin goal entry, files.write (stagingPath path) content = .ok written ∧
      (settled = written ∨ ∃ mode, written.setMode (stagingPath path) mode = .ok settled) ∧
      Swapped files settled (replace device files path content).files path origin goal entry := by
  obtain ⟨written, settled, wrote, set, moved⟩ := replace_done done
  obtain ⟨alike, same⟩ := alike_of_steps wrote set
  obtain ⟨origin, goal, entry, left, aim, there, solid, free, -, named, slashed, result⟩ :=
    FileSystem.rename_eq_ok moved
  have staged := FileSystem.resolve_of_alike alike.symm same.symm left
  have found := FileSystem.resolve_of_alike alike.symm same.symm aim
  obtain ⟨name, file, final⟩ := FileSystem.exists_fileName? ⟨named, slashed⟩ found
  have below : origin ≠ [] :=
    FileTree.ne_root (there ▸ fun same => solid (Option.some.inj same))
  refine ⟨written, settled, origin, goal, entry, wrote, set, staged, found,
    staging_ne file final staged, alike, there, free, fun place => ?_, ?_⟩
  · rw [result, FileTree.get?_set _ entry place (FileTree.ne_root free),
      FileTree.get?_erase settled.tree place below]
  · rw [result]
    exact same

section Swapped

variable {settled : FileSystem} {origin goal : Location} {entry : Entry}

/-- Every link is kept when what was moved was none and has replaced none. -/
theorem Swapped.alike_of_noLink (swapped : Swapped files settled after path origin goal entry)
    (solid : files.IsNoLink path) (draft : files.IsNoLink (stagingPath path))
    (file : entry.isFile = true) : files.tree.Alike after.tree := by
  intro place
  have entries := swapped.entries place
  by_cases here : place = goal
  · rw [if_pos here] at entries
    refine .inr ⟨fun old there => ?_, fun new there => ?_⟩
    · cases old with
      | file content mode => rfl
      | directory => exact absurd (swapped.alike.keep (here ▸ there) rfl) swapped.free
      | link target => exact absurd (here ▸ there) (solid.get?_ne swapped.found target)
    · rw [entries] at there
      exact Option.some.inj there ▸ file
  · rw [if_neg here] at entries
    by_cases left : place = origin
    · rw [if_pos left] at entries
      refine .inr ⟨fun old there => ?_, FileTree.isLeaf_of_absent entries⟩
      cases old with
      | file content mode => rfl
      | directory =>
        have kept := swapped.alike.keep (left ▸ there) rfl
        rw [swapped.ready] at kept
        rw [Option.some.inj kept] at file
        contradiction
      | link target => exact absurd (left ▸ there) (draft.get?_ne swapped.staged target)
    · rw [if_neg left] at entries
      rcases swapped.alike place with same | ⟨old, new⟩
      · exact .inl (entries.trans same)
      · exact .inr ⟨old, new.of_eq entries⟩

/-- What was moved is a link only if one was where the staging file goes. -/
theorem Swapped.noLink_of_keepsLinks
    (swapped : Swapped files settled after path origin goal entry)
    (keeps : files.KeepsLinks after) : files.IsNoLink path ∧ files.IsNoLink (stagingPath path) := by
  have draft : files.IsNoLink (stagingPath path) := by
    intro target present
    obtain ⟨place, kept, there⟩ := lookAtLink_eq_ok_iff.mp present
    obtain rfl : origin = place := Except.ok.inj (swapped.staged.symm.trans kept)
    have gone := swapped.entries origin
    rw [if_neg swapped.apart, if_pos rfl, keeps origin target there] at gone
    contradiction
  refine ⟨fun target present => ?_, draft⟩
  obtain ⟨place, kept, there⟩ := lookAtLink_eq_ok_iff.mp present
  obtain rfl : goal = place := Except.ok.inj (swapped.found.symm.trans kept)
  have come := swapped.entries goal
  rw [if_pos rfl, keeps goal target there] at come
  obtain rfl : .link target = entry := Option.some.inj come
  exact draft.get?_ne swapped.staged target (swapped.alike.symm.keep swapped.ready rfl)

end Swapped

/-- A replacement that succeeds where no link is touches nothing but files. -/
theorem alike_replace_of_done (done : (replace device files path content).fault = none)
    (solid : files.IsNoLink path) (draft : files.IsNoLink (stagingPath path)) :
    files.tree.Alike (replace device files path content).files.tree ∧
      (replace device files path content).files.workingDirectory = files.workingDirectory ∧
      ∃ goal mode, files.resolve .followed path = .ok goal ∧
        (replace device files path content).files.tree.get? goal = some (.file content mode) := by
  obtain ⟨written, settled, origin, goal, entry, wrote, set, swapped⟩ := swapped_replace done
  obtain ⟨place, mode, kept, -, drafted⟩ := drafted_of_steps draft wrote set
  obtain rfl : origin = place := Except.ok.inj (swapped.staged.symm.trans kept)
  obtain rfl : .file content mode = entry :=
    Option.some.inj (drafted.there.symm.trans swapped.ready)
  refine ⟨swapped.alike_of_noLink solid draft rfl, swapped.workingDirectory, goal, mode, ?_, ?_⟩
  · exact resolve_followed swapped.found (solid.get?_ne swapped.found)
  · rw [swapped.entries, if_pos rfl]

/-- A step that failed has touched nothing but files. -/
theorem Halted.alike (left : Halted device files path content after) :
    files.tree.Alike after.tree ∧ after.workingDirectory = files.workingDirectory := by
  cases left with
  | refused => exact ⟨fun _ => .inl rfl, rfl⟩
  | drafted opens made leaf changed => exact ⟨changed.alike leaf, changed.workingDirectory⟩

/-- Removing what is where the staging file goes touches nothing but files when no link is there. -/
theorem alike_cleanUp (device : Device) {now : FileSystem}
    (draft : now.IsNoLink (stagingPath path)) :
    now.tree.Alike (cleanUp device (stagingPath path) now).tree ∧
      (cleanUp device (stagingPath path) now).workingDirectory = now.workingDirectory := by
  unfold cleanUp
  cases device.remove (stagingPath path) with
  | some fault => exact ⟨fun _ => .inl rfl, rfl⟩
  | none =>
    cases done : now.remove (stagingPath path) with
    | error fault => exact ⟨fun _ => .inl rfl, rfl⟩
    | ok gone =>
      obtain ⟨place, entry, kept, there, other, rfl⟩ := remove_eq_ok done
      have below : place ≠ [] :=
        FileTree.ne_root (there ▸ fun same => other (Option.some.inj same))
      have leaf : now.tree.IsLeaf place := by
        intro old here
        obtain rfl : entry = old := Option.some.inj (there.symm.trans here)
        cases entry with
        | file content mode => rfl
        | directory => contradiction
        | link target => exact absurd there (draft.get?_ne kept target)
      refine ⟨fun here => ?_, rfl⟩
      have entries := FileTree.get?_erase now.tree here below
      by_cases same : here = place
      · rw [if_pos same] at entries
        exact .inr ⟨same ▸ leaf, FileTree.isLeaf_of_absent entries⟩
      · rw [if_neg same] at entries
        exact .inl entries

/-- A replacement touches nothing but files where no link is. -/
theorem alike_replace (device : Device) (content : Bytes) (solid : files.IsNoLink path)
    (draft : files.IsNoLink (stagingPath path)) :
    files.tree.Alike (replace device files path content).files.tree ∧
      (replace device files path content).files.workingDirectory = files.workingDirectory := by
  by_cases done : (replace device files path content).fault = none
  · obtain ⟨alike, same, -⟩ := alike_replace_of_done done solid draft
    exact ⟨alike, same⟩
  · obtain ⟨after, left, cleaned⟩ := replace_failed done
    obtain ⟨first, here⟩ := left.alike
    obtain ⟨second, there⟩ := alike_cleanUp device (draft.of_alike first here)
    rw [cleaned]
    exact ⟨first.trans second, there.trans here⟩

/-- A replacement that fails keeps every link unless it removes one where the staging file goes. -/
theorem keepsLinks_replace_iff_of_failed
    (failed : (replace device files path content).fault ≠ none) :
    files.KeepsLinks (replace device files path content).files ↔
      (device.remove (stagingPath path) = none → files.IsNoLink (stagingPath path)) := by
  obtain ⟨after, left, cleaned⟩ := replace_failed failed
  obtain ⟨alike, same⟩ := left.alike
  rw [cleaned]
  constructor
  · intro keeps removes target present
    obtain ⟨place, kept, there⟩ := lookAtLink_eq_ok_iff.mp present
    have below : place ≠ [] := FileTree.ne_root (by rw [there]; simp)
    have gone := remove_of_present (left.resolve kept) (alike.keep there rfl) (by simp)
    have still := keeps place target there
    unfold cleanUp at still
    rw [removes, gone] at still
    simp [Except.toOption, FileTree.get?_erase after.tree place below] at still
  · intro spares
    cases removes : device.remove (stagingPath path) with
    | some fault =>
      unfold cleanUp
      rw [removes]
      exact keepsLinks_of_alike alike
    | none =>
      have draft := (spares removes).of_alike alike same
      exact keepsLinks_of_alike (alike.trans (alike_cleanUp device draft).1)

/-- A replacement that succeeds keeps every link when none is in its way. -/
theorem keepsLinks_replace_iff_of_done (done : (replace device files path content).fault = none) :
    files.KeepsLinks (replace device files path content).files ↔
      files.IsNoLink path ∧ files.IsNoLink (stagingPath path) := by
  constructor
  · intro keeps
    obtain ⟨_, _, _, _, _, -, -, swapped⟩ := swapped_replace done
    exact swapped.noLink_of_keepsLinks keeps
  · rintro ⟨solid, draft⟩
    exact keepsLinks_of_alike (alike_replace device content solid draft).1

/-- Whether no link is in the way of a header that is applied with a result: where the path leads
and where the staging file goes when the file is replaced, and there when what the staging file
left is removed. -/
def SparesLinks (device : Device) (files : FileSystem) (path : Path) :
    Except ApplyError Bool → Prop
  | .ok true => files.IsNoLink path ∧ files.IsNoLink (stagingPath path)
  | .error (.write _ _) =>
    device.remove (stagingPath path) = none → files.IsNoLink (stagingPath path)
  | .ok false | .error (.read _ _) | .error (.decode _ _) => True

end Replacement

/-- Whether a header has been applied where the text was read, and every symbolic link is kept. -/
structure Faithful (before after : FileSystem) (path : Path) (style : Style) (changed : Prop) :
    Prop where
  /-- Every symbolic link is still there and leads to the same path. -/
  links : before.KeepsLinks after
  /-- When a change is reported, the file to which the path led has the header. -/
  header : changed → ∃ place text mode, before.resolve .followed path = .ok place ∧
    after.tree.get? place = some (.file (Utf8.encode text) mode) ∧ HasHeader style text

section Apply

variable {device : Device} {files : FileSystem} {path : Path} {style : Style}

/-- How a header is applied at any path: it is not, or the text that was read is replaced by its
normal form. -/
inductive Application (device : Device) (files : FileSystem) (path : Path) (style : Style) :
    FileSystem × Except ApplyError Bool → Prop where
  /-- The content cannot be read. -/
  | unread (fault : IoFault) :
      Application device files path style (files, .error (.read path fault))
  /-- The content is no text. -/
  | undecoded (fault : Utf8.Fault) :
      Application device files path style (files, .error (.decode path fault))
  /-- The text has the header. -/
  | canonical : Application device files path style (files, .ok false)
  /-- The text is replaced. -/
  | replaced {text new : Text} (made : normalize style text = some new)
      (done : (replace device files path (Utf8.encode new)).fault = none) :
      Application device files path style
        ((replace device files path (Utf8.encode new)).files, .ok true)
  /-- The text cannot be replaced. -/
  | hindered {new : Text} {fault : IoFault}
      (failed : (replace device files path (Utf8.encode new)).fault = some fault) :
      Application device files path style
        ((replace device files path (Utf8.encode new)).files, .error (.write path fault))

/-- A header is applied in one of these ways. -/
theorem application_applyHeader (device : Device) (files : FileSystem) (path : Path)
    (style : Style) :
    Application device files path style (files.applyHeader device path style) := by
  unfold applyHeader readText
  cases files.readFrom device path with
  | error fault => exact .unread fault
  | ok content =>
    dsimp only
    cases Utf8.decode content with
    | error fault => exact .undecoded fault
    | ok text =>
      dsimp only
      cases made : normalize style text with
      | none => exact .canonical
      | some new =>
        unfold replaceText
        cases why : (replace device files path (Utf8.encode new)).fault with
        | none =>
          simp only [why]
          exact .replaced made why
        | some fault =>
          simp only [why]
          exact .hindered why

/-- A header is applied where the text was read and all links are kept exactly when no link is in
its way. -/
theorem Application.faithful_iff {outcome : FileSystem × Except ApplyError Bool}
    (applied : Application device files path style outcome) :
    Faithful files outcome.1 path style (outcome.2 = .ok true) ↔
      SparesLinks device files path outcome.2 := by
  cases applied with
  | unread fault => exact ⟨fun _ => trivial, fun _ => ⟨fun _ _ there => there, nofun⟩⟩
  | undecoded fault => exact ⟨fun _ => trivial, fun _ => ⟨fun _ _ there => there, nofun⟩⟩
  | canonical => exact ⟨fun _ => trivial, fun _ => ⟨fun _ _ there => there, nofun⟩⟩
  | hindered failed =>
    have iff := keepsLinks_replace_iff_of_failed (by rw [failed]; exact Option.some_ne_none _)
    exact ⟨fun faithful => iff.mp faithful.links, fun spares => ⟨iff.mpr spares, nofun⟩⟩
  | @replaced text new made done =>
    have iff := keepsLinks_replace_iff_of_done done
    refine ⟨fun faithful => iff.mp faithful.links, fun spares => ⟨iff.mpr spares, fun _ => ?_⟩⟩
    obtain ⟨-, -, goal, mode, found, there⟩ := alike_replace_of_done done spares.1 spares.2
    exact ⟨goal, new, mode, found, there, hasHeader_iff.mpr (header_prefix_of_made made)⟩

/-- A header that is applied where no link is in its way touches nothing but files. -/
theorem Application.alike {outcome : FileSystem × Except ApplyError Bool}
    (applied : Application device files path style outcome) (solid : files.IsNoLink path)
    (draft : files.IsNoLink (stagingPath path)) :
    files.tree.Alike outcome.1.tree ∧ outcome.1.workingDirectory = files.workingDirectory := by
  cases applied with
  | unread fault => exact ⟨fun _ => .inl rfl, rfl⟩
  | undecoded fault => exact ⟨fun _ => .inl rfl, rfl⟩
  | canonical => exact ⟨fun _ => .inl rfl, rfl⟩
  | replaced made done => exact alike_replace device _ solid draft
  | hindered failed => exact alike_replace device _ solid draft

end Apply

namespace Batch

variable {batch : Batch} {device : Device} {files : FileSystem}

/-- Processing a file touches nothing but files when it is only checked or no link is in the way. -/
theorem alike_processFile (device : Device) {c : Candidate}
    (spares : batch.checkOnly = true ∨
      files.IsNoLink c.path ∧ files.IsNoLink (stagingPath c.path)) :
    files.tree.Alike (batch.processFile device files c).files.tree ∧
      (batch.processFile device files c).files.workingDirectory = files.workingDirectory := by
  cases checks : batch.checkOnly with
  | true =>
    rw [processFile_of_checks checks]
    have spared : Spared batch files (batch.checkFile device files c).files :=
      Spared.checkFile ⟨.refl files, fun _ _ => rfl⟩
    exact ⟨spared.resembles.alike, by rw [spared.resembles.rest]⟩
  | false =>
    rw [checks] at spares
    obtain ⟨solid, draft⟩ := spares.resolve_left Bool.false_ne_true
    rw [processFile_of_writes checks]
    exact (application_applyHeader device files c.path c.style).alike solid draft

/-- A batch touches nothing but files when it only checks or no link is in the way of any of its
candidates. What one step leaves alone the later ones find as it was. -/
theorem alike_process {candidates : List Candidate}
    (spares : batch.checkOnly = true ∨ ∀ c ∈ candidates,
      files.IsNoLink c.path ∧ files.IsNoLink (stagingPath c.path)) :
    files.tree.Alike (batch.process device files candidates).files.tree ∧
      (batch.process device files candidates).files.workingDirectory = files.workingDirectory := by
  induction candidates generalizing files with
  | nil => exact ⟨fun _ => .inl rfl, rfl⟩
  | cons c more ih =>
    obtain ⟨first, here⟩ := alike_processFile device
      (spares.imp_right fun all => all c List.mem_cons_self)
    have later : batch.checkOnly = true ∨ ∀ d ∈ more,
        (batch.processFile device files c).files.IsNoLink d.path ∧
          (batch.processFile device files c).files.IsNoLink (stagingPath d.path) := by
      refine spares.imp_right fun all d member => ?_
      obtain ⟨solid, draft⟩ := all d (List.mem_cons_of_mem c member)
      exact ⟨solid.of_alike first here, draft.of_alike first here⟩
    obtain ⟨second, there⟩ := ih later
    exact ⟨first.trans second, there.trans here⟩

/-- A single candidate is reported as updated exactly when its header was applied. -/
theorem exists_updated_iff {c : Candidate} (writes : batch.checkOnly = false) :
    (∃ report ∈ (batch.process device files [c]).reports, report.action = .updated) ↔
      (files.applyHeader device c.path c.style).2 = .ok true := by
  have reports : (batch.process device files [c]).reports =
      [reportOf c (files.applyHeader device c.path c.style).2] := by
    unfold process process
    rw [processFile_of_writes writes]
  rw [reports]
  simp only [List.mem_singleton, exists_eq_left]
  cases (files.applyHeader device c.path c.style).2 with
  | error error => exact ⟨nofun, nofun⟩
  | ok changed =>
    cases changed with
    | true => exact ⟨fun _ => rfl, fun _ => rfl⟩
    | false => exact ⟨nofun, nofun⟩

end Batch

/-- A header that is applied at a path, by itself or as the one candidate of a batch that writes,
keeps every symbolic link and comes to the file whose text was read exactly when neither the path
nor that of its staging file names a link, as far as the run came to them. A batch keeps all links
when it only checks, and when no candidate has a link in its way. -/
theorem faithful_iff_sparesLinks (device : Device) (files : FileSystem) :
    (∀ path style, let applied := files.applyHeader device path style
      Faithful files applied.1 path style (applied.2 = .ok true) ↔
        SparesLinks device files path applied.2) ∧
    (∀ (batch : Batch) (c : Candidate), batch.checkOnly = false →
      let done := batch.process device files [c]
      (Faithful files done.files c.path c.style
          (∃ report ∈ done.reports, report.action = .updated) ↔
        SparesLinks device files c.path (files.applyHeader device c.path c.style).2)) ∧
    ∀ (batch : Batch) (candidates : List Candidate),
      (batch.checkOnly = true ∨ ∀ c ∈ candidates,
        files.IsNoLink c.path ∧ files.IsNoLink (stagingPath c.path)) →
      files.KeepsLinks (batch.process device files candidates).files := by
  refine ⟨fun path style => (application_applyHeader device files path style).faithful_iff,
    fun batch c writes => ?_, fun batch candidates spares =>
      keepsLinks_of_alike (Batch.alike_process spares).1⟩
  have files_eq : (batch.process device files [c]).files =
      (files.applyHeader device c.path c.style).1 := by
    unfold Batch.process Batch.process
    rw [processFile_of_writes writes]
  dsimp only
  rw [files_eq, Batch.exists_updated_iff writes]
  exact (application_applyHeader device files c.path c.style).faithful_iff

/-- A file and a link to it. -/
def linkedFiles : FileSystem where
  tree := ⟨[([Utf8.encode "a.c".toList], .file (Utf8.encode "int x;\n".toList) 0o644),
    ([Utf8.encode "b.c".toList], .link (.ofString "a.c"))]⟩
  workingDirectory := []

/-- The batch that writes to the files. -/
def linkedBatch : Batch := ⟨.ofString "/", false, none⟩

/-- The text of the file is read at both paths, and a header is written to both. -/
theorem applyHeader_linkedFiles (path : Path) (named : path ∈ ["a.c", "b.c"].map Path.ofString) :
    ∃ new, linkedFiles.applyHeader .reliable path .block =
        ((linkedFiles.replaceText .reliable path new).1, .ok true) := by
  have made : normalize .block "int x;\n".toList =
      some (Style.block.header ++ "int x;\n".toList) := by
    decide +kernel
  have written (text : Text) : (linkedFiles.replaceText .reliable path text).2 = .ok () ∧
      linkedFiles.readText .reliable path = .ok "int x;\n".toList := by
    simp only [List.map_cons, List.map_nil, List.mem_cons, List.not_mem_nil, or_false] at named
    rcases named with rfl | rfl
    · exact ⟨by cbv, by cbv⟩
    · exact ⟨by cbv, by cbv⟩
  refine ⟨Style.block.header ++ "int x;\n".toList, ?_⟩
  rw [applyHeader_of_normalize (written []).2 made, (written _).1]
  rfl

/-- A header that is applied to the file itself leaves the link to it, by itself and in a batch. -/
theorem faithful_iff_sparesLinks_linked :
    let c : Candidate := ⟨.ofString "a.c", .block⟩
    let applied := linkedFiles.applyHeader .reliable c.path c.style
    let done := linkedBatch.process .reliable linkedFiles [c]
    applied.2 = .ok true ∧ Faithful linkedFiles applied.1 c.path c.style (applied.2 = .ok true) ∧
      linkedBatch.checkOnly = false ∧
      Faithful linkedFiles done.files c.path c.style
        (∃ report ∈ done.reports, report.action = .updated) ∧
      linkedFiles.KeepsLinks done.files := by
  intro c applied done
  obtain ⟨new, written⟩ :=
    applyHeader_linkedFiles (.ofString "a.c") List.mem_cons_self
  have result : applied.2 = .ok true := congrArg Prod.snd written
  have solid : linkedFiles.IsNoLink c.path := by
    have file : linkedFiles.lookAtLink (.ofString "a.c") =
        .ok (.file (Utf8.encode "int x;\n".toList) 0o644) := by
      cbv
    intro target link
    exact absurd (file.symm.trans link) (by simp)
  have draft : linkedFiles.IsNoLink (stagingPath c.path) := by
    have absent : linkedFiles.lookAtLink (stagingPath (.ofString "a.c")) = .error .noEntry := by
      cbv
    intro target link
    exact absurd (absent.symm.trans link) (by simp)
  have spares : SparesLinks .reliable linkedFiles c.path applied.2 := by
    rw [result]
    exact ⟨solid, draft⟩
  obtain ⟨single, one, all⟩ := faithful_iff_sparesLinks .reliable linkedFiles
  refine ⟨result, (single _ _).mpr spares, rfl, (one linkedBatch c rfl).mpr spares,
    all linkedBatch [c] (.inr fun d member => ?_)⟩
  obtain rfl := List.mem_singleton.mp member
  exact ⟨solid, draft⟩

/-- A header that is applied at the link is put in its place, and the file that was read is as it
was. -/
theorem applyHeader_linked :
    let applied := linkedFiles.applyHeader .reliable (.ofString "b.c") .block
    applied.2 = .ok true ∧
      linkedFiles.tree.get? [Utf8.encode "b.c".toList] = some (.link (.ofString "a.c")) ∧
      (∃ content mode,
        applied.1.tree.get? [Utf8.encode "b.c".toList] = some (.file content mode)) ∧
      applied.1.tree.get? [Utf8.encode "a.c".toList] =
        some (.file (Utf8.encode "int x;\n".toList) 0o644) := by
  intro applied
  obtain ⟨new, written⟩ :=
    applyHeader_linkedFiles (.ofString "b.c") (by simp)
  have here (text : Text) : ∃ content mode,
      (linkedFiles.replaceText .reliable (.ofString "b.c") text).1.tree.get?
        [Utf8.encode "b.c".toList] = some (.file content mode) :=
    ⟨Utf8.encode text, 0o644, by cbv⟩
  have there (text : Text) : (linkedFiles.replaceText .reliable (.ofString "b.c") text).1.tree.get?
      [Utf8.encode "a.c".toList] = some (.file (Utf8.encode "int x;\n".toList) 0o644) := by
    cbv
  refine ⟨congrArg Prod.snd written, by cbv, ?_, ?_⟩
  · rw [show applied = _ from written]
    exact here new
  · rw [show applied = _ from written]
    exact there new

end LicenseHeader
