import LicenseHeader.Proofs.Batch.Process
import LicenseHeader.Proofs.Batch.Selection

/-!
# Reports tell what happened

`Truthful` says of a batch that its reports are what happened to the files: the files reported as
updated have got their normal form, and nothing else has changed. It holds of every batch that
writes, for any listed paths.
-/

namespace LicenseHeader

open Replacement

/-- Whether no file is listed under two paths. -/
def SingleSpelling (files : FileSystem) (paths : List Path) : Prop :=
  ∀ p ∈ paths, ∀ q ∈ paths, ∀ place,
    files.resolve .kept p = .ok place → files.resolve .kept q = .ok place → p = q

/-- Whether the reports of a batch on listed paths are what happened to the files. -/
structure Truthful (device : Device) (before : FileSystem) (paths : List Path)
    (targets : List Candidate) (outcome : BatchOutcome) : Prop where
  /-- Every listed path with a style is reported, in some spelling. -/
  reported : ∀ path ∈ paths, ∀ style, Style.ofPath? path = some style →
    ∃ report ∈ outcome.reports, report.path.same path = true ∧ report.style = some style
  /-- An entry has changed exactly when its file is reported as updated. -/
  changed_iff : ∀ place, outcome.files.tree.get? place ≠ before.tree.get? place ↔
    ∃ report ∈ outcome.reports,
      report.action = .updated ∧ before.resolve .kept report.path = .ok place
  /-- An updated file was text and holds the normal form of it, with the permission bits it had. -/
  updated : ∀ report ∈ outcome.reports, report.action = .updated →
    ∃ place style text new mode,
      report.style = some style ∧ before.resolve .kept report.path = .ok place ∧
        before.tree.get? place = some (.file (Utf8.encode text) mode) ∧
        normalize style text = some new ∧
        outcome.files.tree.get? place = some (.file (Utf8.encode new) mode)
  /-- An unchanged file holds text with the header behind its preamble. It did so before, unless it
  is also reported as updated. -/
  unchanged : ∀ report ∈ outcome.reports, report.action = .unchanged →
    ∃ place style text mode,
      report.style = some style ∧ before.resolve .kept report.path = .ok place ∧
        outcome.files.tree.get? place = some (.file (Utf8.encode text) mode) ∧
        style.header <+: (Preamble.split style text).2 ∧
        (before.tree.get? place = some (.file (Utf8.encode text) mode) ∨
          ∃ other ∈ outcome.reports, other.action = .updated ∧ other.path = report.path)
  /-- A file failed because the device does not read it, because it is no text, or because
  something keeps it from being replaced. -/
  failed : ∀ report ∈ outcome.reports, report.action = .failed → ∀ place text mode,
    before.resolve .kept report.path = .ok place →
      before.tree.get? place = some (.file (Utf8.encode text) mode) →
      device.read report.path = none → isObstructed device before report.path = true
  /-- A file that failed or was skipped is as it was. -/
  spared : ∀ report ∈ outcome.reports, report.action = .failed ∨ report.action = .ignored →
    ∀ place, before.resolve .kept report.path = .ok place →
      outcome.files.tree.get? place = before.tree.get? place
  /-- A listed file without a style is as it was. -/
  plain : ∀ path ∈ paths, Style.ofPath? path = none →
    ∀ place, before.resolve .kept path = .ok place →
      outcome.files.tree.get? place = before.tree.get? place
  /-- What is not listed is as it was. -/
  unlisted : ∀ place, (∀ path ∈ paths, before.resolve .kept path ≠ .ok place) →
    outcome.files.tree.get? place = before.tree.get? place
  /-- No staging file is left. -/
  tidy : ∀ c ∈ targets, (outcome.files.lookAtLink (stagingPath c.path)).isOk = false
  /-- Nothing but the tree is another. -/
  rest : outcome.files = { before with tree := outcome.files.tree }

section Selected

variable {batch : Batch} {device : Device} {files after : FileSystem} {exclusion : Exclusion}
  {paths : List Path} {reports : List Report}

/-- The targets of a selection can be processed safely. -/
theorem workload_targets (single : SingleSpelling files paths)
    (clear : ∀ c ∈ (Selection.ofPaths files exclusion paths).targets,
      (files.lookAtLink (stagingPath c.path)).isOk = false)
    (removable : ∀ c ∈ (Selection.ofPaths files exclusion paths).targets,
      device.remove (stagingPath c.path) = none) :
    Workload device files (Selection.ofPaths files exclusion paths).targets where
  ready c member := by
    obtain ⟨-, -, chosen⟩ := Selection.of_mem_targets member
    obtain ⟨goal, content, mode, found, there⟩ := SkipReason.exists_file chosen
    exact ⟨goal, content, mode, found, there, clear c member, removable c member⟩
  single c member d other goal found also := by
    obtain ⟨listed, style, -⟩ := Selection.of_mem_targets member
    obtain ⟨present, again, -⟩ := Selection.of_mem_targets other
    have path := single c.path listed d.path present goal found also
    rw [path, again] at style
    obtain ⟨p, t⟩ := c
    obtain ⟨q, u⟩ := d
    obtain rfl : p = q := path
    obtain rfl : u = t := Option.some.inj style
    rfl

/-- A report of something else than that a file was skipped is one of a target. -/
theorem mem_reports_of_ne {report : Report}
    (member : report ∈ (batch.processSelection device files
      (Selection.ofPaths files exclusion paths)).reports) (other : report.action ≠ .ignored) :
    report ∈ (batch.process device files (Selection.ofPaths files exclusion paths).targets).reports
    := by
  rcases List.mem_append.mp member with skipped | told
  · obtain ⟨c, reason, -, -, -, rfl⟩ := Selection.of_mem_ignored skipped
    exact absurd rfl other
  · exact told

/-- A listed path that is not that of a target is as it was. -/
theorem same_of_ne_target (single : SingleSpelling files paths)
    (done : Processed device files (Selection.ofPaths files exclusion paths).targets files
      (Selection.ofPaths files exclusion paths).targets after reports) {path : Path}
    (present : path ∈ paths)
    (other : ∀ c ∈ (Selection.ofPaths files exclusion paths).targets, c.path ≠ path)
    {place : Location} (found : files.resolve .kept path = .ok place) :
    after.tree.get? place = files.tree.get? place := by
  apply done.same_of_other
  intro c target also
  have listed := (Selection.of_mem_targets target).1
  exact other c target (single c.path listed path present place also found)

/-- A canonical file was so before, or is reported as updated too. -/
theorem same_or_updated (single : SingleSpelling files paths)
    (done : Processed device files (Selection.ofPaths files exclusion paths).targets files
      (Selection.ofPaths files exclusion paths).targets after reports) {path : Path}
    (present : path ∈ paths) {place : Location} (found : files.resolve .kept path = .ok place) :
    after.tree.get? place = files.tree.get? place ∨
      ∃ report ∈ reports, report.action = .updated ∧ report.path = path := by
  by_cases same : after.tree.get? place = files.tree.get? place
  · exact .inl same
  · obtain ⟨report, member, updated, aim⟩ := (done.changed_iff place).mp same
    obtain ⟨c, target, goal, new, spelled, -⟩ := done.due_of_updated member updated
    have listed := (Selection.of_mem_targets target).1
    rw [spelled] at aim
    exact .inr ⟨report, member, updated,
      spelled.trans (single c.path listed path present place aim found)⟩

end Selected

/-- The reports of a batch that writes are what happened, when every file is listed under one path,
no staging file is there before, and staging files can be removed. -/
theorem truthful_processSelection {batch : Batch} {device : Device} {files : FileSystem}
    {exclusion : Exclusion} {paths : List Path} (writes : batch.checkOnly = false)
    (single : SingleSpelling files paths)
    (clear : ∀ c ∈ (Selection.ofPaths files exclusion paths).targets,
      (files.lookAtLink (stagingPath c.path)).isOk = false)
    (removable : ∀ c ∈ (Selection.ofPaths files exclusion paths).targets,
      device.remove (stagingPath c.path) = none) :
    Truthful device files paths (Selection.ofPaths files exclusion paths).targets
      (batch.processSelection device files (Selection.ofPaths files exclusion paths)) := by
  have work := workload_targets single clear removable
  have done := processed_process writes work .refl fun c member => member
  constructor
  case reported =>
    intro path present style styled
    cases why : SkipReason.of? files exclusion path with
    | some reason =>
      have ignored := Selection.mem_ignored present styled why
      exact ⟨_, List.mem_append_left _ ignored, decide_eq_true rfl, rfl⟩
    | none =>
      obtain ⟨c, target, components, rfl⟩ := Selection.exists_target present styled why
      obtain ⟨report, told, tells⟩ := done.answered c target
      refine ⟨report, List.mem_append_right _ told, decide_eq_true ?_, tells.style_eq⟩
      rw [tells.path_eq, components]
  case changed_iff =>
    intro place
    refine (done.changed_iff place).trans ?_
    constructor
    · intro ⟨report, member, told⟩
      exact ⟨report, List.mem_append_right _ member, told⟩
    · intro ⟨report, member, updated, found⟩
      exact ⟨report, mem_reports_of_ne member (by simp [updated]), updated, found⟩
  case updated =>
    intro report member updated
    have told := mem_reports_of_ne member (by simp [updated])
    obtain ⟨c, -, goal, new, path, style, due, come⟩ := done.due_of_updated told updated
    cases due with
    | rewrite found file readable rebuilt free =>
      exact ⟨goal, c.style, _, _, _, style, path ▸ found, file, rebuilt, come⟩
  case unchanged =>
    intro report member unchanged
    have told := mem_reports_of_ne member (by simp [unchanged])
    obtain ⟨c, target, goal, path, style, found, text, mode, there, canonical⟩ :=
      done.isCanonical_of_unchanged work told unchanged
    refine ⟨goal, c.style, text, mode, style, path ▸ found, there,
      header_prefix_of_normalize canonical, ?_⟩
    rw [path]
    rcases same_or_updated single done (Selection.of_mem_targets target).1 found with
      same | ⟨other, also, updated⟩
    · exact .inl (same.symm.trans there)
    · exact .inr ⟨other, List.mem_append_right _ also, updated⟩
  case failed =>
    intro report member failed place text mode found file readable
    have told := mem_reports_of_ne member (by simp [failed])
    exact done.isObstructed_of_failed told failed found file readable
  case spared =>
    intro report member spared place found
    rcases List.mem_append.mp member with skipped | told
    · obtain ⟨c, reason, present, -, why, rfl⟩ := Selection.of_mem_ignored skipped
      apply same_of_ne_target single done present _ found
      intro d target path
      have chosen := (Selection.of_mem_targets target).2.2
      rw [path, why] at chosen
      contradiction
    · rcases spared with failed | ignored
      · exact done.same_of_failed work told failed found
      · obtain ⟨c, -, tells⟩ := done.told report told
        cases tells <;> contradiction
  case plain =>
    intro path present bare place found
    apply same_of_ne_target single done present _ found
    intro c target same
    have style := (Selection.of_mem_targets target).2.1
    rw [same, bare] at style
    contradiction
  case unlisted =>
    intro place away
    apply done.same_of_other
    intro c target
    exact away c.path (Selection.of_mem_targets target).1
  case tidy =>
    intro c member
    exact done.reached.isOk_lookAtLink (clear c member)
  case rest => exact done.reached.rest

/-- A directory with a file to rewrite, one of a given content, one that is no text, a link, and one
without a style. -/
def mixedFiles (canonical : Bytes) : FileSystem where
  tree := ⟨[([Utf8.encode "a.c".toList], .file (Utf8.encode "int x;\n".toList) 0o755),
    ([Utf8.encode "b.py".toList], .file canonical 0o600),
    ([Utf8.encode "c.rs".toList], .file [0xFF] 0o644),
    ([Utf8.encode "d.h".toList], .link (.ofString "a.c")),
    ([Utf8.encode "e.txt".toList], .file [] 0o644)]⟩
  workingDirectory := []

/-- The paths of the files. -/
def mixedPaths : List Path := ["d.h", "a.c", "e.txt", "c.rs", "b.py", "a.c"].map Path.ofString

/-- The paths and those of their staging files are single names. -/
theorem isOneName_mixed : ∀ path ∈ mixedPaths,
    FileSystem.IsOneName path ∧ FileSystem.IsOneName (stagingPath path) := by
  decide +kernel

/-- Every path names its entry in the directory. -/
theorem resolve_mixed (canonical : Bytes) {path : Path} (one : FileSystem.IsOneName path) :
    (mixedFiles canonical).resolve .kept path = .ok [path.bytes] :=
  FileSystem.resolve_of_isOneName one rfl

/-- No staging file is there. -/
theorem clear_mixed (canonical : Bytes) {path : Path} (member : path ∈ mixedPaths) :
    ((mixedFiles canonical).lookAtLink (stagingPath path)).isOk = false := by
  have absent : (mixedFiles canonical).tree.get? [(stagingPath path).bytes] = none := by
    simp only [mixedPaths, List.map_cons, List.map_nil, List.mem_cons, List.not_mem_nil,
      or_false] at member
    rcases member with rfl | rfl | rfl | rfl | rfl | rfl <;> rfl
  unfold FileSystem.lookAtLink
  rw [resolve_mixed canonical (isOneName_mixed path member).2]
  simp only [bind, Except.bind, absent]
  rfl

/-- The first file is a target. -/
theorem target_mixed (canonical : Bytes) :
    ⟨.ofString "a.c", .block⟩ ∈
      (Selection.ofPaths (mixedFiles canonical) ⟨.ofString "/", []⟩ mixedPaths).targets := by
  have present : .ofString "a.c" ∈ mixedPaths := by decide +kernel
  have spelling : ∀ path ∈ mixedPaths,
      path.components = (Path.ofString "a.c").components → path = .ofString "a.c" := by
    decide +kernel
  have named : (Path.ofString "a.c").fileName? = some (Utf8.encode "a.c".toList) := by
    decide +kernel
  have styled : Style.ofPath? (.ofString "a.c") = some .block := by
    unfold Style.ofPath?
    rw [named]
    simp only [Option.bind_eq_bind, Option.bind_some]
    rw [Utf8.decode_eq_ok_iff.mpr rfl]
    decide +kernel
  have looked : (mixedFiles canonical).lookAtLink (.ofString "a.c") =
      .ok (.file (Utf8.encode "int x;\n".toList) 0o755) :=
    FileSystem.lookAtLink_eq_ok_iff.mpr
      ⟨_, resolve_mixed canonical (isOneName_mixed _ present).1, rfl⟩
  have chosen : SkipReason.of? (mixedFiles canonical) ⟨.ofString "/", []⟩ (.ofString "a.c") =
      none := by
    unfold SkipReason.of? SkipReason.ofKind?
    rw [looked]
    rfl
  obtain ⟨c, target, components, style⟩ := Selection.exists_target present styled chosen
  have path := spelling c.path (Selection.of_mem_targets target).1 components
  obtain ⟨p, t⟩ := c
  obtain rfl : p = .ofString "a.c" := path
  obtain rfl : t = .block := style
  exact target

/-- A script with the header. -/
def headedScript : Bytes := Utf8.encode (Style.sharp.header ++ "x = 1\n".toList)

/-- The reports of a batch on such a directory are what happened, also where a path is listed
twice. -/
theorem truthful_processSelection_mixed :
    SingleSpelling (mixedFiles headedScript) mixedPaths ∧
      ⟨.ofString "a.c", .block⟩ ∈
        (Selection.ofPaths (mixedFiles headedScript) ⟨.ofString "/", []⟩ mixedPaths).targets ∧
      (∀ c ∈ (Selection.ofPaths (mixedFiles headedScript) ⟨.ofString "/", []⟩ mixedPaths).targets,
        ((mixedFiles headedScript).lookAtLink (stagingPath c.path)).isOk = false) ∧
      Truthful .reliable (mixedFiles headedScript) mixedPaths
        (Selection.ofPaths (mixedFiles headedScript) ⟨.ofString "/", []⟩ mixedPaths).targets
        (Batch.processSelection ⟨.ofString "/", false, none⟩ .reliable (mixedFiles headedScript)
          (Selection.ofPaths (mixedFiles headedScript) ⟨.ofString "/", []⟩ mixedPaths)) := by
  have single : SingleSpelling (mixedFiles headedScript) mixedPaths := by
    intro p here q there place found also
    rw [resolve_mixed headedScript (isOneName_mixed p here).1] at found
    rw [resolve_mixed headedScript (isOneName_mixed q there).1] at also
    have same := (Except.ok.inj found).trans (Except.ok.inj also).symm
    obtain ⟨bytes⟩ := p
    obtain ⟨others⟩ := q
    exact congrArg Path.mk (List.cons.inj same).1
  have clear (c : Candidate)
      (member : c ∈ (Selection.ofPaths (mixedFiles headedScript) ⟨.ofString "/", []⟩
        mixedPaths).targets) :
      ((mixedFiles headedScript).lookAtLink (stagingPath c.path)).isOk = false :=
    clear_mixed headedScript (Selection.of_mem_targets member).1
  exact ⟨single, target_mixed headedScript, clear,
    truthful_processSelection rfl single clear fun _ _ => rfl⟩

end LicenseHeader
