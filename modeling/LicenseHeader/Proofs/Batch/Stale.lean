import LicenseHeader.Proofs.Batch.Plan
import LicenseHeader.Proofs.Batch.Selection
import LicenseHeader.Proofs.File.Spelling

/-!
# Files without their header

A file is stale when it is a candidate that is not skipped, can be read as text, and has no header
behind its preamble. A run that writes nothing reports an update exactly when a listed file is stale
(`Selection.updated_isEmpty_of_silent`, `Selection.exists_stale_iff`), and one that writes changes
nothing when none is (`process_of_settled`).
-/

namespace LicenseHeader

/-- Whether the file at a path is a candidate that needs its header. -/
structure IsStale (device : Device) (files : FileSystem) (exclusion : Exclusion) (path : Path) :
    Prop where
  /-- The path is that of a regular file. -/
  regular : ∃ content mode, files.lookAtLink path = .ok (.file content mode)
  /-- No pattern excludes the path. -/
  included : exclusion.verdict path = none
  /-- The name of the file has a style, and its text does not start with the header of this style
  behind the preamble. -/
  bare : ∃ style text, Style.ofPath? path = some style ∧ files.readText device path = .ok text ∧
    ¬ style.header <+: (Preamble.split style text).2

/-- Whether a device reads all of the listed spellings of a path or none of them. -/
def Device.ReadsAlike (device : Device) (paths : List Path) : Prop :=
  ∀ p ∈ paths, ∀ q ∈ paths, p.components = q.components → device.read p = device.read q

/-- A path is not skipped exactly when it is that of a regular file and not excluded. -/
theorem SkipReason.of?_eq_none_iff {files : FileSystem} {exclusion : Exclusion} {path : Path} :
    SkipReason.of? files exclusion path = none ↔
      (∃ content mode, files.lookAtLink path = .ok (.file content mode)) ∧
        exclusion.verdict path = none := by
  unfold SkipReason.of? SkipReason.ofKind?
  cases files.lookAtLink path with
  | error fault => simp
  | ok entry => cases entry <;> simp

/-- A text is that of a file which the device reads. -/
theorem readText_eq_ok_iff {device : Device} {files : FileSystem} {path : Path} {text : Text} :
    files.readText device path = .ok text ↔
      device.read path = none ∧ files.read path = .ok (Utf8.encode text) := by
  unfold FileSystem.readText FileSystem.readFrom
  cases device.read path with
  | some fault => simp
  | none =>
    cases files.read path with
    | error fault => simp
    | ok content =>
      have decoded : Utf8.decode content = .ok text ↔ content = Utf8.encode text := by
        rw [Utf8.decode_eq_ok_iff, eq_comm]
      simp only [true_and, Except.ok.injEq, ← decoded]
      cases Utf8.decode content <;> simp

namespace Candidate

variable {device : Device} {files : FileSystem} {c : Candidate}

/-- Whether the text of a candidate does not start with the header behind its preamble. -/
def IsBare (device : Device) (files : FileSystem) (c : Candidate) : Prop :=
  ∃ text, files.readText device c.path = .ok text ∧
    ¬ c.style.header <+: (Preamble.split c.style text).2

/-- What checking the file of a candidate finds. -/
def finding (device : Device) (files : FileSystem) (c : Candidate) : Except ApplyError Bool :=
  (files.readText device c.path).map fun text => (normalize c.style text).isSome

/-- A check finds that the header has to be written exactly when it is missing. -/
theorem finding_eq_true_iff : c.finding device files = .ok true ↔ c.IsBare device files := by
  unfold finding IsBare
  cases files.readText device c.path with
  | error error => simp [Except.map]
  | ok text =>
    simp only [Except.map, Except.ok.injEq, exists_eq_left', Option.isSome_iff_exists]
    constructor
    · rintro ⟨new, made⟩
      exact (normalize_eq_some_iff.mp made).1
    · intro missing
      exact ⟨_, normalize_eq_some_iff.mpr ⟨missing, rfl⟩⟩

end Candidate

section Batch

variable {batch : Batch} {device : Device} {files : FileSystem} {candidates : List Candidate}

/-- A check without patches tells what it finds and changes nothing. -/
theorem checkFile_of_silent (silent : batch.patches = none) (c : Candidate) :
    batch.checkFile device files c = ⟨files, [], c.finding device files⟩ := by
  unfold Batch.checkFile Candidate.finding
  cases files.readText device c.path with
  | error error => rfl
  | ok text =>
    cases made : normalize c.style text with
    | none => simp [made, Except.map]
    | some new =>
      unfold Batch.sendPatch
      simp [made, silent, Except.map]

/-- Applying a header that is there, or to a file that cannot be read, changes nothing and ends as a
check does. -/
theorem applyHeader_of_settled {c : Candidate} (settled : ¬ c.IsBare device files) :
    files.applyHeader device c.path c.style = (files, c.finding device files) := by
  have found := mt Candidate.finding_eq_true_iff.mp settled
  unfold FileSystem.applyHeader
  unfold Candidate.finding at found ⊢
  cases read : files.readText device c.path with
  | error error => rfl
  | ok text =>
    cases made : normalize c.style text with
    | none => simp [made, Except.map]
    | some new => simp [read, made, Except.map] at found

/-- Files of which none changes on the way are reported as if each were the first. -/
theorem process_of_unchanged
    (step : ∀ c ∈ candidates, batch.processFile device files c =
      ⟨files, [], c.finding device files⟩) :
    (batch.process device files candidates).files = files ∧
      (batch.process device files candidates).reports =
        candidates.map fun c => Batch.reportOf c (c.finding device files) := by
  induction candidates with
  | nil => exact ⟨rfl, rfl⟩
  | cons c more ih =>
    obtain ⟨first, others⟩ := List.forall_mem_cons.mp step
    obtain ⟨same, reports⟩ := ih others
    unfold Batch.process
    rw [first, List.map_cons]
    exact ⟨same, congrArg _ reports⟩

/-- A run that writes nothing, patches neither, changes nothing and reports what checks find. -/
theorem process_of_silent (checks : batch.checkOnly = true) (silent : batch.patches = none) :
    (batch.process device files candidates).files = files ∧
      (batch.process device files candidates).reports =
        candidates.map fun c => Batch.reportOf c (c.finding device files) :=
  process_of_unchanged fun c _ => by rw [processFile_of_checks checks, checkFile_of_silent silent]

/-- A run that writes changes nothing when no file needs its header. -/
theorem process_of_settled (writes : batch.checkOnly = false)
    (settled : ∀ c ∈ candidates, ¬ c.IsBare device files) :
    (batch.process device files candidates).files = files ∧
      (batch.process device files candidates).reports =
        candidates.map fun c => Batch.reportOf c (c.finding device files) :=
  process_of_unchanged fun c member => by
    rw [processFile_of_writes writes, applyHeader_of_settled (settled c member)]

end Batch

/-- A report tells of an update exactly when the header had to be written. -/
theorem Batch.action_reportOf (c : Candidate) (result : Except ApplyError Bool) :
    (Batch.reportOf c result).action = .updated ↔ result = .ok true := by
  cases result with
  | error error => simp [Batch.reportOf, Report.because]
  | ok made => cases made <;> simp [Batch.reportOf, Report.plain]

/-- The group of updates is empty exactly when no report tells of one. -/
theorem Groups.updated_isEmpty_iff (reports : List Report) :
    (Groups.ofReports reports).updated.isEmpty = true ↔
      ¬ ∃ report ∈ reports, report.action = .updated := by
  rw [List.isEmpty_iff]
  constructor
  · rintro empty ⟨report, member, updated⟩
    have grouped : report ∈ (Groups.ofReports reports).updated :=
      List.mem_mergeSort.mpr (List.mem_filter.mpr ⟨member, decide_eq_true updated⟩)
    rw [empty] at grouped
    contradiction
  · intro none
    apply List.eq_nil_iff_forall_not_mem.mpr
    intro report grouped
    obtain ⟨member, updated⟩ := List.mem_filter.mp (List.mem_mergeSort.mp grouped)
    exact none ⟨report, member, of_decide_eq_true updated⟩

namespace Selection

variable {device : Device} {files : FileSystem} {exclusion : Exclusion} {paths : List Path}

/-- The reports of a run that finds what checks find tell of an update exactly when a target needs
its header. -/
theorem exists_updated_iff :
    (∃ report ∈ (ofPaths files exclusion paths).ignored ++
        (ofPaths files exclusion paths).targets.map fun c =>
          Batch.reportOf c (c.finding device files), report.action = .updated) ↔
      ∃ c ∈ (ofPaths files exclusion paths).targets, c.IsBare device files := by
  constructor
  · rintro ⟨report, member, updated⟩
    rcases List.mem_append.mp member with skipped | processed
    · obtain ⟨c, reason, -, -, -, rfl⟩ := of_mem_ignored skipped
      contradiction
    · obtain ⟨c, target, rfl⟩ := List.mem_map.mp processed
      exact ⟨c, target, Candidate.finding_eq_true_iff.mp ((Batch.action_reportOf c _).mp updated)⟩
  · rintro ⟨c, target, bare⟩
    refine ⟨_, List.mem_append_right _ (List.mem_map_of_mem target), ?_⟩
    exact (Batch.action_reportOf c _).mpr (Candidate.finding_eq_true_iff.mpr bare)

/-- A check without patches reports no update exactly when no target needs its header. -/
theorem updated_isEmpty_of_silent {batch : Batch} (checks : batch.checkOnly = true)
    (silent : batch.patches = none) :
    (Groups.ofReports (batch.processSelection device files
        (ofPaths files exclusion paths)).reports).updated.isEmpty = true ↔
      ∀ c ∈ (ofPaths files exclusion paths).targets, ¬ c.IsBare device files := by
  have reports : (batch.processSelection device files (ofPaths files exclusion paths)).reports =
      (ofPaths files exclusion paths).ignored ++
        (ofPaths files exclusion paths).targets.map fun c =>
          Batch.reportOf c (c.finding device files) :=
    congrArg _ (process_of_silent checks silent).2
  rw [reports, Groups.updated_isEmpty_iff, exists_updated_iff]
  simp only [not_exists, not_and]

/-- Regular files under paths with the same components are read alike, if the device does so. -/
theorem readText_of_components {path other : Path} {text : Text}
    (same : path.components = other.components)
    (regular : ∃ content mode, files.lookAtLink path = .ok (.file content mode))
    (also : ∃ content mode, files.lookAtLink other = .ok (.file content mode))
    (alike : device.read path = device.read other) (read : files.readText device path = .ok text) :
    files.readText device other = .ok text := by
  obtain ⟨content, mode, looked⟩ := regular
  obtain ⟨content', mode', looked'⟩ := also
  obtain ⟨goal, found, there⟩ := FileSystem.lookAtLink_eq_ok_iff.mp looked
  obtain ⟨place, found', there'⟩ := FileSystem.lookAtLink_eq_ok_iff.mp looked'
  obtain rfl : place = goal :=
    FileSystem.resolve_eq_of_components same found (by simp [there]) found' (by simp [there'])
  rw [readText_eq_ok_iff, FileSystem.read_eq_ok_iff (by simp [looked])] at read
  rw [readText_eq_ok_iff, FileSystem.read_eq_ok_iff (by simp [looked']), ← alike]
  obtain ⟨readable, aim, bits, led, file⟩ := read
  obtain rfl : place = aim := Except.ok.inj (found.symm.trans led)
  exact ⟨readable, place, bits, found', file⟩

/-- A target is stale exactly when it needs its header. -/
theorem isStale_iff {c : Candidate} (target : c ∈ (ofPaths files exclusion paths).targets) :
    IsStale device files exclusion c.path ↔ c.IsBare device files := by
  obtain ⟨-, style, chosen⟩ := of_mem_targets target
  obtain ⟨regular, included⟩ := SkipReason.of?_eq_none_iff.mp chosen
  constructor
  · intro stale
    obtain ⟨other, text, styled, read, missing⟩ := stale.bare
    obtain rfl : c.style = other := Option.some.inj (style.symm.trans styled)
    exact ⟨text, read, missing⟩
  · rintro ⟨text, read, missing⟩
    exact ⟨regular, included, c.style, text, style, read, missing⟩

/-- A target is stale exactly when a listed file is, where the device reads all spellings of a path
alike. -/
theorem exists_stale_iff (alike : device.ReadsAlike paths) :
    (∃ c ∈ (ofPaths files exclusion paths).targets, IsStale device files exclusion c.path) ↔
      ∃ path ∈ paths, IsStale device files exclusion path := by
  constructor
  · rintro ⟨c, target, stale⟩
    exact ⟨c.path, (of_mem_targets target).1, stale⟩
  · rintro ⟨path, listed, stale⟩
    obtain ⟨style, text, styled, read, missing⟩ := stale.bare
    have chosen := SkipReason.of?_eq_none_iff.mpr ⟨stale.regular, stale.included⟩
    obtain ⟨c, target, same, rfl⟩ := exists_target listed styled chosen
    obtain ⟨also, -, accepted⟩ := of_mem_targets target
    have regular := (SkipReason.of?_eq_none_iff.mp accepted).1
    exact ⟨c, target, (isStale_iff target).mpr ⟨text, readText_of_components same.symm stale.regular
      regular (alike path listed c.path also same.symm) read, missing⟩⟩

end Selection

end LicenseHeader
