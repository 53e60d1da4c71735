import LicenseHeader.Proofs.Batch.Reports
import LicenseHeader.Proofs.File.Device

/-!
# The patch file of a check

A run that writes nothing changes at most the file to which patches are added. What it adds there
are the patches of the files that it reports as updated, in their order and once for each report,
made from the texts that the files have, each as far as the device writes it (`patched_process`).
-/

namespace LicenseHeader

namespace Device

variable {device : Device} {path : Path}

/-- Whether a device does not fail to add to the file at a path. -/
structure Adds (device : Device) (path : Path) : Prop where
  /-- It opens the file. -/
  opens : device.opening path = none
  /-- It writes the whole of a content. -/
  writes : device.write path = none

/-- What is added to the file at a path when a content is to be: nothing if the device does not open
it, and else as much as the device writes. -/
def pieces (device : Device) (path : Path) (content : Bytes) : List Bytes :=
  match device.opening path with
  | some _ => []
  | none => [device.portion path content]

/-- A content is added whole where adding does not fail. -/
theorem Adds.pieces_eq (adds : device.Adds path) (content : Bytes) :
    device.pieces path content = [content] := by
  unfold pieces portion
  rw [adds.opens, adds.writes]

end Device

namespace FileSystem

variable {files : FileSystem} {path : Path}

/-- What opening a file to add to it finds: where it is, what it holds and its permission bits. A
missing file is made and holds nothing. -/
structure Opens (files : FileSystem) (path : Path) (place : Location) (content : Bytes)
    (mode : Nat) : Prop where
  /-- The path leads to the location. -/
  found : files.resolve .created path = .ok place
  /-- The file is there, or nothing is. -/
  entry : files.tree.get? place = some (.file content mode) ∨
    files.tree.get? place = none ∧ content = [] ∧ mode = Entry.fileMode

/-- Nothing but a file is where one can be opened. -/
theorem Opens.leaf {place : Location} {content : Bytes} {mode : Nat}
    (opens : files.Opens path place content mode) : files.tree.IsLeaf place := by
  rcases opens.entry with file | ⟨absent, -, -⟩
  · exact FileTree.isLeaf_of_file file
  · exact FileTree.isLeaf_of_absent absent

/-- What is added to a file that can be opened stands behind what it held. -/
theorem Opens.append {place : Location} {content : Bytes} {mode : Nat}
    (opens : files.Opens path place content mode) (more : Bytes) :
    files.append path more = .ok (files.put place (.file (content ++ more) mode)) := by
  unfold FileSystem.append alter
  rw [opens.found]
  simp only [bind, Except.bind]
  rcases opens.entry with file | ⟨absent, rfl, rfl⟩
  · rw [file]
    rfl
  · rw [absent]
    rfl

/-- A file can be opened exactly when adding to it succeeds. -/
theorem exists_opens_iff {more : Bytes} :
    (∃ place content mode, files.Opens path place content mode) ↔
      (files.append path more).isOk = true := by
  constructor
  · rintro ⟨place, content, mode, opens⟩
    rw [opens.append more]
    rfl
  · intro added
    cases done : files.append path more with
    | error fault =>
      rw [done] at added
      contradiction
    | ok after =>
      obtain ⟨place, content, mode, found, entry, -⟩ := alter_eq_ok done
      exact ⟨place, content, mode, found, entry⟩

/-- What is read at a path is the content of the file to which it leads. -/
theorem read_eq_ok_iff_followed {content : Bytes} :
    files.read path = .ok content ↔ ∃ goal mode, files.resolve .followed path = .ok goal ∧
      files.tree.get? goal = some (.file content mode) := by
  unfold FileSystem.read lookAt
  cases files.resolve .followed path with
  | error fault => simp [bind, Except.bind]
  | ok goal =>
    simp only [bind, Except.bind]
    cases there : files.tree.get? goal with
    | none => simp [there, throw, throwThe, MonadExceptOf.throw]
    | some entry =>
      cases entry <;> simp [there, pure, Except.pure, throw, throwThe, MonadExceptOf.throw]

/-- Whether pieces have been added in order to the file at a location, which held what is given, and
nothing else has changed. -/
structure Extended (before after : FileSystem) (place : Location) (content : Bytes) (mode : Nat)
    (added : List Bytes) : Prop where
  /-- Nothing but files differs. -/
  resembles : before.Resembles after
  /-- Every other location has the entry that it had. -/
  others : ∀ other, other ≠ place → after.tree.get? other = before.tree.get? other
  /-- The file holds what was added behind what it held; it is not made when nothing was added. -/
  entry : after.tree.get? place = if added = [] then before.tree.get? place
    else some (.file (content ++ added.flatten) mode)

namespace Extended

variable {before after : FileSystem} {place : Location} {content : Bytes} {mode : Nat}
  {added : List Bytes}

/-- Files to which nothing was added are as they were. -/
theorem refl (files : FileSystem) (place : Location) (content : Bytes) (mode : Nat) :
    files.Extended files place content mode [] :=
  ⟨.refl files, fun _ _ => rfl, rfl⟩

/-- A file that could be opened can be opened again, and holds what was added to it. -/
theorem opens (extended : before.Extended after place content mode added)
    (could : before.Opens path place content mode) :
    after.Opens path place (content ++ added.flatten) mode := by
  refine ⟨extended.resembles.resolve_iff.mpr could.found, ?_⟩
  rw [extended.entry]
  by_cases none : added = []
  · subst none
    simpa using could.entry
  · exact .inl (if_neg none)

/-- What was added to a file can be read behind what it held. -/
theorem read_eq (extended : before.Extended after place content mode added)
    (could : before.Opens path place content mode) (some : added ≠ []) :
    after.read path = .ok (content ++ added.flatten) := by
  apply read_eq_ok_iff_followed.mpr
  refine ⟨place, mode, resolve_of_created (extended.opens could).found, ?_⟩
  rw [extended.entry, if_neg some]

/-- One more piece added to the file. -/
theorem append (extended : before.Extended after place content mode added)
    (could : before.Opens path place content mode) (more : Bytes) :
    ∃ next, after.append path more = .ok next ∧
      before.Extended next place content mode (added ++ [more]) := by
  have opens := extended.opens could
  have below := opens.leaf.ne_root
  have changed := changedAt_put after (.file (content ++ added.flatten ++ more) mode) below
  refine ⟨_, opens.append more, extended.resembles.trans ⟨changed.rest, changed.alike opens.leaf⟩,
    ?_, ?_⟩
  · intro other apart
    rw [changed.entries, if_neg apart, extended.others other apart]
  · rw [changed.there, if_neg (by simp)]
    simp

/-- How the pieces are divided that were added does not matter. -/
theorem of_flatten {other : List Bytes} (extended : before.Extended after place content mode added)
    (some : added ≠ []) (also : other ≠ []) (same : other.flatten = added.flatten) :
    before.Extended after place content mode other := by
  refine ⟨extended.resembles, extended.others, ?_⟩
  rw [extended.entry, if_neg some, if_neg also, same]

/-- One more patch is added as far as the device adds it. -/
theorem record (extended : before.Extended after place content mode added)
    (could : before.Opens path place content mode) {output : PatchOutput}
    (aim : output.saved = some path) (device : Device) (patch : Text) :
    before.Extended (output.record device after patch).files place content mode
        (added ++ device.pieces path (Utf8.encode patch)) ∧
      (device.Adds path → (output.record device after patch).failure = none) := by
  unfold PatchOutput.record Device.opened Device.pieces
  rw [aim]
  cases shut : device.opening path with
  | some fault => exact ⟨by simpa [shut] using extended, fun adds => by simp [adds.opens] at shut⟩
  | none =>
    obtain ⟨begun, opened, first⟩ := extended.append could []
    obtain ⟨next, added, second⟩ :=
      first.append could (device.portion path (Utf8.encode patch))
    simp only [shut, opened, Attempt.ofWriting_of_ok added]
    refine ⟨second.of_flatten (by simp) (by simp) (by simp), fun adds => ?_⟩
    rw [adds.writes]
    rfl

/-- One more patch is added whole where nothing fails. -/
theorem save (extended : before.Extended after place content mode added)
    (could : before.Opens path place content mode) {output : PatchOutput}
    (aim : output.saved = some path) (patch : Text) :
    ∃ next, output.save after patch = .ok next ∧
      before.Extended next place content mode (added ++ [Utf8.encode patch]) := by
  have adds : Device.reliable.Adds path := ⟨rfl, rfl⟩
  obtain ⟨further, done⟩ := extended.record could aim .reliable patch
  rw [adds.pieces_eq] at further
  refine ⟨_, ?_, further⟩
  unfold PatchOutput.save
  simp only [done adds]

/-- A file to which nothing is added is read as before. -/
theorem readText_iff (extended : before.Extended after place content mode added)
    {device : Device} {other : Path} (aside : before.resolve .followed other ≠ .ok place)
    {text : Text} :
    after.readText device other = .ok text ↔ before.readText device other = .ok text := by
  simp only [readText_eq_ok_iff, read_eq_ok_iff_followed, extended.resembles.resolve_iff]
  refine and_congr_right fun _ => exists_congr fun goal => exists_congr fun bits =>
    and_congr_right fun found => ?_
  have apart : goal ≠ place := by
    rintro rfl
    exact aside found
  rw [extended.others goal apart]

end Extended

end FileSystem

/-- Whether a text is the patch that turns the text of a candidate's file into its normal form,
which is another text. -/
def Batch.IsPatchOf (batch : Batch) (device : Device) (files : FileSystem) (c : Candidate)
    (patch : Text) : Prop :=
  ∃ text new, files.readText device c.path = .ok text ∧ normalize c.style text = some new ∧
    patch = PatchOutput.render (c.path.belowOrSelf batch.root) text new

/-- The candidates whose reports tell of an update, in their order. -/
def updatedOf (candidates : List Candidate) (reports : List Report) : List Candidate :=
  ((candidates.zip reports).filter (·.2.action = .updated)).map (·.1)

/-- A candidate in front is listed when its report tells of an update. -/
theorem updatedOf_cons (c : Candidate) (more : List Candidate) (report : Report)
    (reports : List Report) : updatedOf (c :: more) (report :: reports) =
      if report.action = .updated then c :: updatedOf more reports else updatedOf more reports := by
  unfold updatedOf
  rw [List.zip_cons_cons, List.filter_cons]
  by_cases updated : report.action = .updated <;> simp [updated]

/-- A candidate whose text has another normal form has no header. -/
theorem Candidate.isBare_of_made {device : Device} {files : FileSystem} {c : Candidate}
    {text new : Text} (read : files.readText device c.path = .ok text)
    (made : normalize c.style text = some new) : c.IsBare device files :=
  ⟨text, read, (normalize_eq_some_iff.mp made).1⟩

/-- Checking a file finds what its text says, wherever its patch goes. -/
theorem Batch.result_checkFile (batch : Batch) (device : Device) (files : FileSystem)
    (c : Candidate) : (batch.checkFile device files c).result = c.finding device files := by
  unfold checkFile Candidate.finding
  cases files.readText device c.path with
  | error error => rfl
  | ok text => cases made : normalize c.style text <;> simp [made, Except.map]

section Check

variable {batch : Batch} {device : Device} {start now : FileSystem} {place : Location}
  {content : Bytes} {mode : Nat} {added : List Bytes} {output : PatchOutput} {saved : Path}

/-- A file to which nothing is added has its header or has not, as before. -/
theorem FileSystem.Extended.isBare_iff (extended : start.Extended now place content mode added)
    {c : Candidate} (aside : start.resolve .followed c.path ≠ .ok place) :
    c.IsBare device now ↔ c.IsBare device start :=
  exists_congr fun _ => and_congr_left fun _ => extended.readText_iff aside

/-- Checking a file adds its patch, as far as the device adds it, when it has no header, and else
changes nothing. -/
theorem extended_checkFile (sent : batch.patches = some output) (aim : output.saved = some saved)
    (opens : start.Opens saved place content mode)
    (extended : start.Extended now place content mode added) (device : Device) {c : Candidate}
    (aside : start.resolve .followed c.path ≠ .ok place) :
    (c.IsBare device start → ∃ patch, batch.IsPatchOf device start c patch ∧
        start.Extended (batch.checkFile device now c).files place content mode
          (added ++ device.pieces saved (Utf8.encode patch))) ∧
      (¬ c.IsBare device start → (batch.checkFile device now c).files = now) := by
  rw [← extended.isBare_iff aside, ← Candidate.finding_eq_true_iff]
  unfold Candidate.finding
  cases read : now.readText device c.path with
  | error error =>
    refine ⟨fun bare => by simp [Except.map] at bare, fun _ => ?_⟩
    unfold Batch.checkFile
    rw [read]
  | ok text =>
    cases made : normalize c.style text with
    | none =>
      refine ⟨fun bare => by simp [made, Except.map] at bare, fun _ => ?_⟩
      unfold Batch.checkFile
      simp only [read, made]
    | some new =>
      refine ⟨fun _ => ?_, fun settled => by simp [made, Except.map] at settled⟩
      let patch := PatchOutput.render (c.path.belowOrSelf batch.root) text new
      have further := (extended.record opens aim device patch).1
      have sends : (batch.checkFile device now c).files =
          (output.record device now patch).files := by
        unfold Batch.checkFile Batch.sendPatch
        simp only [read, made, sent]
        rfl
      rw [sends]
      exact ⟨patch, ⟨text, new, (extended.readText_iff aside).mp read, made, rfl⟩, further⟩

/-- A run that writes nothing reports an update of the files without a header, and adds the patches
of these, in their order. -/
theorem extended_process (checks : batch.checkOnly = true) (sent : batch.patches = some output)
    (aim : output.saved = some saved) (opens : start.Opens saved place content mode)
    (extended : start.Extended now place content mode added) (device : Device)
    {candidates : List Candidate}
    (aside : ∀ c ∈ candidates, start.resolve .followed c.path ≠ .ok place) :
    let done := batch.process device now candidates
    (∀ pair ∈ candidates.zip done.reports,
        (pair.2.action = .updated ↔ pair.1.IsBare device start)) ∧
      ∃ patches, List.Forall₂ (batch.IsPatchOf device start) (updatedOf candidates done.reports)
          patches ∧
        start.Extended done.files place content mode
          (added ++ patches.flatMap fun patch => device.pieces saved (Utf8.encode patch)) := by
  induction candidates generalizing now added with
  | nil => exact ⟨nofun, [], .nil, by rwa [List.flatMap_nil, List.append_nil]⟩
  | cons c more ih =>
    have beside := aside c List.mem_cons_self
    have others := fun d member => aside d (List.mem_cons_of_mem c member)
    have told : (Batch.reportOf c (batch.processFile device now c).result).action = .updated ↔
        c.IsBare device start := by
      rw [processFile_of_checks checks, Batch.action_reportOf, Batch.result_checkFile,
        Candidate.finding_eq_true_iff, extended.isBare_iff beside]
    have step := extended_checkFile sent aim opens extended device beside
    rw [← processFile_of_checks checks] at step
    unfold Batch.process
    dsimp only
    rw [List.zip_cons_cons, updatedOf_cons]
    by_cases bare : c.IsBare device start
    · obtain ⟨patch, isPatch, further⟩ := step.1 bare
      obtain ⟨reports, patches, matching, rest⟩ := ih further others
      refine ⟨List.forall_mem_cons.mpr ⟨told, reports⟩, patch :: patches, ?_, ?_⟩
      · rw [if_pos (told.mpr bare)]
        exact .cons isPatch matching
      · simpa using rest
    · obtain ⟨reports, patches, matching, rest⟩ := ih ((step.2 bare).symm ▸ extended) others
      refine ⟨List.forall_mem_cons.mpr ⟨told, reports⟩, patches, ?_, rest⟩
      rw [if_neg (mt told.mp bare)]
      exact matching

end Check

/-- A run that writes nothing, where patches are added to a file that can be opened and is none of
the records, changes no other file. The records, in their order, are reported as updated when they
have no header, and for each of these there is one patch, which turns the text that the record has
into its normal form. The patch file gets as much of each patch as the device adds, in their order,
and if adding does not fail it gets them whole; what it held stands before them. -/
theorem patched_process {batch : Batch} (device : Device) {files : FileSystem}
    {records : List Candidate} {output : PatchOutput} {saved : Path} {place : Location}
    {content : Bytes} {mode : Nat} (checks : batch.checkOnly = true)
    (sent : batch.patches = some output) (aim : output.saved = some saved)
    (opens : files.Opens saved place content mode)
    (aside : ∀ c ∈ records, files.resolve .followed c.path ≠ .ok place) :
    let done := batch.process device files records
    (∀ other, other ≠ place → done.files.tree.get? other = files.tree.get? other) ∧
      done.reports.map (·.path) = records.map (·.path) ∧
      (∀ pair ∈ records.zip done.reports,
        (pair.2.action = .updated ↔ pair.1.IsBare device files)) ∧
      ∃ patches, List.Forall₂ (batch.IsPatchOf device files) (updatedOf records done.reports)
          patches ∧
        done.files.Opens saved place (content ++ (patches.flatMap fun patch =>
          device.pieces saved (Utf8.encode patch)).flatten) mode ∧
        (device.Adds saved →
          done.files.Opens saved place (content ++ Utf8.encode patches.flatten) mode ∧
          (patches = [] → done.files.tree.get? place = files.tree.get? place) ∧
          (patches ≠ [] →
            done.files.read saved = .ok (content ++ Utf8.encode patches.flatten))) := by
  intro done
  obtain ⟨reports, patches, matching, extended⟩ :=
    extended_process checks sent aim opens (.refl files place content mode) device aside
  rw [List.nil_append] at extended
  refine ⟨extended.others, Batch.paths_process batch device files records, reports, patches,
    matching, extended.opens opens, fun adds => ?_⟩
  simp only [adds.pieces_eq, ← List.map_eq_flatMap] at extended
  have whole := extended.opens opens
  have read := extended.read_eq opens
  rw [← Utf8.encode_flatten] at whole read
  exact ⟨whole, fun none => extended.entry.trans (if_pos (by simp [none])),
    fun some => read (by simpa using some)⟩

/-- A file that is no text, one without its header, and a patch file that has been begun. -/
def begunFiles : FileSystem where
  tree := ⟨[([Utf8.encode "b.py".toList], .file [0xFF] 0o644),
    ([Utf8.encode "a.c".toList], .file (Utf8.encode "int x;\n".toList) 0o755),
    ([Utf8.encode "out.patch".toList], .file (Utf8.encode "old\n".toList) 0o600)]⟩
  workingDirectory := []

/-- The first two files. -/
def begunRecords : List Candidate := [⟨.ofString "b.py", .sharp⟩, ⟨.ofString "a.c", .block⟩]

/-- Patches are shown and saved. -/
def begunBatch : Batch := ⟨.ofString "/", true, some ⟨true, some (.ofString "out.patch")⟩⟩

/-- A check adds the patch of the one file that needs its header behind what the patch file held,
and leaves both files as they are. -/
theorem patched_process_begun :
    begunFiles.Opens (.ofString "out.patch") [Utf8.encode "out.patch".toList]
        (Utf8.encode "old\n".toList) 0o600 ∧
      (∀ c ∈ begunRecords,
        begunFiles.resolve .followed c.path ≠ .ok [Utf8.encode "out.patch".toList]) ∧
      let done := begunBatch.process .reliable begunFiles begunRecords
      let new := Style.block.header ++ "int x;\n".toList
      done.files.read (.ofString "out.patch") = .ok (Utf8.encode "old\n".toList ++
          Utf8.encode (PatchOutput.render (.ofString "a.c") "int x;\n".toList new)) ∧
        ∀ other, other ≠ [Utf8.encode "out.patch".toList] →
          done.files.tree.get? other = begunFiles.tree.get? other := by
  have opens : begunFiles.Opens (.ofString "out.patch") [Utf8.encode "out.patch".toList]
      (Utf8.encode "old\n".toList) 0o600 := ⟨by cbv, .inl (by cbv)⟩
  have aside : ∀ c ∈ begunRecords,
      begunFiles.resolve .followed c.path ≠ .ok [Utf8.encode "out.patch".toList] := by
    have binary : begunFiles.resolve .followed (.ofString "b.py") =
        .ok [Utf8.encode "b.py".toList] := by cbv
    have plain : begunFiles.resolve .followed (.ofString "a.c") =
        .ok [Utf8.encode "a.c".toList] := by cbv
    unfold begunRecords
    simp only [List.forall_mem_cons, List.not_mem_nil, false_implies, implies_true, and_true]
    rw [binary, plain]
    decide
  have unread : ∃ error, begunFiles.readText .reliable (.ofString "b.py") = .error error :=
    ⟨_, by cbv⟩
  have read : begunFiles.readText .reliable (.ofString "a.c") = .ok "int x;\n".toList := by cbv
  have made : normalize .block "int x;\n".toList =
      some (Style.block.header ++ "int x;\n".toList) := by
    decide +kernel
  have settled : ¬ Candidate.IsBare .reliable begunFiles ⟨.ofString "b.py", .sharp⟩ := by
    rintro ⟨text, found, -⟩
    obtain ⟨error, failed⟩ := unread
    cases failed.symm.trans found
  have bare : Candidate.IsBare .reliable begunFiles ⟨.ofString "a.c", .block⟩ :=
    Candidate.isBare_of_made read made
  refine ⟨opens, aside, ?_⟩
  intro done new
  obtain ⟨others, paths, reports, patches, matching, -, added⟩ :=
    patched_process .reliable (show begunBatch.checkOnly = true from rfl)
      (show begunBatch.patches = some ⟨true, some (.ofString "out.patch")⟩ from rfl) rfl opens aside
  obtain ⟨-, -, saved⟩ := added ⟨rfl, rfl⟩
  obtain ⟨first, more, whole, -, rest⟩ := List.map_eq_cons_iff.mp paths
  obtain ⟨second, none, two, -, empty⟩ := List.map_eq_cons_iff.mp rest
  obtain rfl := List.map_eq_nil_iff.mp empty
  subst two
  rw [whole] at reports matching
  have failed := reports (⟨.ofString "b.py", .sharp⟩, first) List.mem_cons_self
  have updated := reports (⟨.ofString "a.c", .block⟩, second)
    (List.mem_cons_of_mem _ List.mem_cons_self)
  have listed : updatedOf begunRecords [first, second] = [⟨.ofString "a.c", .block⟩] := by
    unfold begunRecords
    rw [updatedOf_cons, if_neg (mt failed.mp settled), updatedOf_cons, if_pos (updated.mpr bare)]
    rfl
  rw [listed] at matching
  obtain ⟨patch, rest, isPatch, last, rfl⟩ := List.forall₂_cons_left_iff.mp matching
  obtain rfl := List.forall₂_nil_left_iff.mp last
  obtain ⟨text, next, found, formed, rfl⟩ := isPatch
  obtain rfl := Except.ok.inj (read.symm.trans found)
  obtain rfl : new = next := Option.some.inj (made.symm.trans formed)
  have below : Path.belowOrSelf (.ofString "a.c") begunBatch.root = .ofString "a.c" := by cbv
  have shown := saved (List.cons_ne_nil _ _)
  simp only [below, List.flatten_cons, List.flatten_nil, List.append_nil] at shown
  exact ⟨shown, others⟩

end LicenseHeader
