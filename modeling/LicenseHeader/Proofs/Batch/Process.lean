import LicenseHeader.Proofs.Batch.Reached

/-!
# What processing files does

`Tells` says when a report is true of the files at the start, and `Processed` what has been done
when some candidates have been processed: only what was due has come, all of it has, and every
change and every candidate is reported. `processed_process` shows this for all files that are
processed one after the other, from what one step does.
-/

namespace LicenseHeader

open Replacement

/-- Whether a report tells what happened to the file of a candidate, in terms of the files at the
start. -/
inductive Tells (device : Device) (start : FileSystem) (candidate : Candidate) : Report → Prop where
  /-- What was due is written. -/
  | updated {goal : Location} {new : Entry} (due : Due device start candidate goal new) :
      Tells device start candidate (.plain candidate .updated)
  /-- The file is canonical, or has become so before. -/
  | unchanged {goal : Location} (found : start.resolve .kept candidate.path = .ok goal)
      (right : IsCanonical start candidate goal ∨ ∃ new, Due device start candidate goal new) :
      Tells device start candidate (.plain candidate .unchanged)
  /-- The file cannot be read, is no text, or cannot be replaced by its normal form. -/
  | failed (reason : String) (hindered : ∀ goal text mode,
        start.resolve .kept candidate.path = .ok goal →
        start.tree.get? goal = some (.file (Utf8.encode text) mode) →
        device.read candidate.path = none →
        normalize candidate.style text ≠ none ∧ isObstructed device start candidate.path = true) :
      Tells device start candidate (.because candidate .failed reason)

/-- A report names the path of its candidate. -/
theorem Tells.path_eq {device : Device} {start : FileSystem} {candidate : Candidate}
    {report : Report} (tells : Tells device start candidate report) :
    report.path = candidate.path := by
  cases tells <;> rfl

/-- A report gives the style of its candidate. -/
theorem Tells.style_eq {device : Device} {start : FileSystem} {candidate : Candidate}
    {report : Report} (tells : Tells device start candidate report) :
    report.style = some candidate.style := by
  cases tells <;> rfl

/-- Nothing is due for a candidate that failed. -/
theorem Tells.not_due {device : Device} {start : FileSystem} {candidate : Candidate}
    {report : Report} (tells : Tells device start candidate report)
    (failed : report.action = .failed) {goal : Location} {new : Entry} :
    ¬ Due device start candidate goal new := by
  intro due
  cases tells with
  | updated _ => contradiction
  | unchanged _ _ => contradiction
  | failed reason hindered =>
    cases due with
    | rewrite found file readable rebuilt free =>
      have blocked := (hindered _ _ _ found file readable).2
      rw [free] at blocked
      contradiction

/-- What processing candidates has done, of all that are to be processed. -/
structure Processed (device : Device) (start : FileSystem) (all : List Candidate)
    (now : FileSystem) (candidates : List Candidate) (after : FileSystem)
    (reports : List Report) : Prop where
  /-- Only entries that were due have come. -/
  reached : Reached device start all after
  /-- What had come before has stayed. -/
  kept : ∀ place, now.tree.get? place ≠ start.tree.get? place →
    after.tree.get? place = now.tree.get? place
  /-- Every change is reported. -/
  changed : ∀ place, after.tree.get? place ≠ now.tree.get? place →
    ∃ report ∈ reports, report.action = .updated ∧ start.resolve .kept report.path = .ok place
  /-- All that was due for the candidates has come. -/
  complete : ∀ c ∈ candidates, ∀ goal new, Due device start c goal new →
    after.tree.get? goal = some new
  /-- Every report is one of a candidate and true. -/
  told : ∀ report ∈ reports, ∃ c ∈ candidates, Tells device start c report
  /-- Every candidate has a report. -/
  answered : ∀ c ∈ candidates, ∃ report ∈ reports, Tells device start c report

namespace Processed

variable {device : Device} {start now middle after : FileSystem} {all : List Candidate}

/-- No candidates are processed by doing nothing. -/
theorem nil (reached : Reached device start all now) :
    Processed device start all now [] now [] where
  reached := reached
  kept _ _ := rfl
  changed _ other := absurd rfl other
  complete _ member := by contradiction
  told _ member := by contradiction
  answered _ member := by contradiction

/-- Candidates are processed one part after the other. -/
theorem append {first second : List Candidate} {early late : List Report}
    (done : Processed device start all now first middle early)
    (more : Processed device start all middle second after late) :
    Processed device start all now (first ++ second) after (early ++ late) where
  reached := more.reached
  kept place come := by
    have stayed := done.kept place come
    rw [← stayed] at come ⊢
    exact more.kept place come
  changed place other := by
    by_cases same : middle.tree.get? place = now.tree.get? place
    · rw [← same] at other
      obtain ⟨report, member, told⟩ := more.changed place other
      exact ⟨report, List.mem_append_right early member, told⟩
    · obtain ⟨report, member, told⟩ := done.changed place same
      exact ⟨report, List.mem_append_left late member, told⟩
  complete c member goal new due := by
    rcases List.mem_append.mp member with member | member
    · have come := done.complete c member goal new due
      have other : middle.tree.get? goal ≠ start.tree.get? goal := by
        rw [come]
        exact due.ne.symm
      rw [more.kept goal other, come]
    · exact more.complete c member goal new due
  told report member := by
    rcases List.mem_append.mp member with member | member
    · obtain ⟨c, here, tells⟩ := done.told report member
      exact ⟨c, List.mem_append_left second here, tells⟩
    · obtain ⟨c, here, tells⟩ := more.told report member
      exact ⟨c, List.mem_append_right first here, tells⟩
  answered c member := by
    rcases List.mem_append.mp member with member | member
    · obtain ⟨report, here, tells⟩ := done.answered c member
      exact ⟨report, List.mem_append_left late here, tells⟩
    · obtain ⟨report, here, tells⟩ := more.answered c member
      exact ⟨report, List.mem_append_right early here, tells⟩

/-- A candidate whose file stays as it is has been processed when nothing more is due for it. -/
theorem of_agrees (reached : Reached device start all now) (same : now.Agrees after)
    {c : Candidate} {report : Report} (tells : Tells device start c report)
    (come : ∀ goal new, Due device start c goal new → now.tree.get? goal = some new) :
    Processed device start all now [c] after [report] where
  reached := by
    refine ⟨by rw [same.rest, reached.rest], fun place => ?_⟩
    rw [same.entries]
    exact reached.entries place
  kept place _ := same.entries place
  changed place other := absurd (same.entries place) other
  complete d only goal new due := by
    rw [same.entries]
    exact come goal new (List.mem_singleton.mp only ▸ due)
  told other only := by
    rw [List.mem_singleton.mp only]
    exact ⟨c, List.mem_singleton_self c, tells⟩
  answered d only := by
    rw [List.mem_singleton.mp only]
    exact ⟨report, List.mem_singleton_self report, tells⟩

/-- A candidate whose file gets what was due has been processed. -/
theorem of_changedAt (reached : Reached device start all now) {c : Candidate} (member : c ∈ all)
    {goal : Location} {new : Entry} (due : Due device start c goal new)
    (first : now.tree.get? goal = start.tree.get? goal)
    (changed : now.ChangedAt after goal new) :
    Processed device start all now [c] after [.plain c .updated] where
  reached := by
    refine ⟨by rw [changed.rest, reached.rest], fun place => ?_⟩
    by_cases there : place = goal
    · rw [there]
      exact .inr ⟨c, member, new, due, changed.there⟩
    · rw [changed.entries, if_neg there]
      exact reached.entries place
  kept place come := by
    have elsewhere : place ≠ goal := by
      intro there
      rw [there] at come
      exact come first
    rw [changed.entries, if_neg elsewhere]
  changed place other := by
    refine ⟨_, List.mem_singleton_self _, rfl, ?_⟩
    by_cases there : place = goal
    · rw [there]
      exact due.found
    · rw [changed.entries, if_neg there] at other
      exact absurd rfl other
  complete d only place entry also := by
    obtain rfl := List.mem_singleton.mp only
    obtain rfl : place = goal := Except.ok.inj (also.found.symm.trans due.found)
    rw [also.unique due]
    exact changed.there
  told report only := by
    rw [List.mem_singleton.mp only]
    exact ⟨c, List.mem_singleton_self c, .updated due⟩
  answered d only := by
    rw [List.mem_singleton.mp only]
    exact ⟨_, List.mem_singleton_self _, .updated due⟩

section Single

variable {c : Candidate} {goal : Location} {old content : Bytes} {mode bits : Nat}

/-- A candidate whose file is canonical has been processed. -/
theorem of_canonical (reached : Reached device start all now)
    (ready : Ready device start c.path goal old mode)
    (here : now.tree.get? goal = some (.file content bits))
    (state : (content = old ∧ bits = mode) ∨ Due device start c goal (.file content bits))
    {text : Text} (bytes : Utf8.encode text = content)
    (canonical : normalize c.style text = none) :
    Processed device start all now [c] now [.plain c .unchanged] := by
  have right : IsCanonical start c goal ∨ Due device start c goal (.file content bits) := by
    rcases state with ⟨rfl, rfl⟩ | due
    · exact .inl ⟨text, bits, bytes ▸ ready.file, canonical⟩
    · exact .inr due
  have tells : Tells device start c (.plain c .unchanged) :=
    .unchanged ready.found (right.imp_right fun due => ⟨_, due⟩)
  apply of_agrees reached (.refl now) tells
  intro place new due
  obtain rfl : place = goal := Except.ok.inj (due.found.symm.trans ready.found)
  rcases right with right | came
  · exact absurd right due.not_isCanonical
  · rw [due.unique came]
    exact here

/-- A candidate whose file could not be rewritten has been processed. -/
theorem of_hindered (reached : Reached device start all now)
    (ready : Ready device start c.path goal old mode)
    (here : now.tree.get? goal = some (.file content bits))
    (state : (content = old ∧ bits = mode) ∨ Due device start c goal (.file content bits))
    (reason : String)
    (hindered : ∀ text, device.read c.path = none → Utf8.encode text = content →
      normalize c.style text ≠ none ∧ isObstructed device now c.path = true)
    (same : now.Agrees after) :
    Processed device start all now [c] after [.because c .failed reason] := by
  have tells : Tells device start c (.because c .failed reason) := by
    apply Tells.failed
    intro place text bits' found file readable
    obtain rfl : place = goal := Except.ok.inj (found.symm.trans ready.found)
    rw [← reached.isObstructed_eq]
    rcases state with ⟨rfl, rfl⟩ | came
    · rw [ready.file] at file
      have bytes := (Entry.file.inj (Option.some.inj file)).1
      exact hindered text readable bytes.symm
    · -- What was due is canonical, and nothing hinders a canonical text.
      obtain ⟨fresh, _, there, canonical⟩ := came.isCanonical here
      rw [here] at there
      have bytes := (Entry.file.inj (Option.some.inj there)).1
      exact absurd canonical (hindered fresh readable bytes.symm).1
  apply of_agrees reached same tells
  intro place new due
  exact absurd due (tells.not_due rfl)

/-- One candidate is processed. -/
theorem single {batch : Batch} (writes : batch.checkOnly = false)
    (work : Workload device start all) (reached : Reached device start all now)
    (member : c ∈ all) :
    Processed device start all now [c] (batch.processFile device now c).files
      [Batch.reportOf c (batch.processFile device now c).result] := by
  obtain ⟨goal, old, mode, ready⟩ := work.ready c member
  obtain ⟨content, bits, here, state⟩ := reached.ready work member ready
  rw [processFile_of_writes writes]
  have treated := treated_applyHeader here
  generalize now.applyHeader device c.path c.style = applied at treated ⊢
  obtain ⟨after, result⟩ := applied
  dsimp only at treated ⊢
  cases treated with
  | updated readable bytes rebuilt free changed =>
    rcases state with ⟨rfl, rfl⟩ | came
    · rw [reached.isObstructed_eq] at free
      have due := Due.rewrite ready.found (bytes ▸ ready.file) readable rebuilt free
      exact of_changedAt reached member due (here.file.trans ready.file.symm) changed
    · -- What was due is canonical, so that no file is written a second time.
      rw [came.canonical bytes] at rebuilt
      contradiction
  | unchanged bytes canonical => exact of_canonical reached ready here.file state bytes canonical
  | failed error hindered same =>
    exact of_hindered reached ready here.file state error.reason hindered same

end Single

end Processed

/-- Candidates are processed in order. -/
theorem processed_process {batch : Batch} (writes : batch.checkOnly = false) {device : Device}
    {start now : FileSystem} {all candidates : List Candidate}
    (work : Workload device start all) (reached : Reached device start all now)
    (members : ∀ c ∈ candidates, c ∈ all) :
    Processed device start all now candidates (batch.process device now candidates).files
      (batch.process device now candidates).reports := by
  -- The start stays where it is while the files move on from one candidate to the next.
  induction candidates generalizing now with
  | nil => exact .nil reached
  | cons c more ih =>
    have first := Processed.single writes work reached (members c List.mem_cons_self)
    have rest := ih first.reached fun d member => members d (List.mem_cons_of_mem c member)
    exact first.append rest

namespace Processed

variable {device : Device} {start after : FileSystem} {all : List Candidate}
  {reports : List Report}

/-- A file reported as updated has got what was due for it. -/
theorem due_of_updated (done : Processed device start all start all after reports)
    {report : Report} (member : report ∈ reports) (updated : report.action = .updated) :
    ∃ c ∈ all, ∃ goal new, report.path = c.path ∧ report.style = some c.style ∧
      Due device start c goal new ∧ after.tree.get? goal = some new := by
  obtain ⟨c, present, tells⟩ := done.told report member
  cases tells with
  | updated due => exact ⟨c, present, _, _, rfl, rfl, due, done.complete c present _ _ due⟩
  | unchanged _ _ => contradiction
  | failed _ _ => contradiction

/-- An entry has changed exactly when its file is reported as updated. -/
theorem changed_iff (done : Processed device start all start all after reports)
    (place : Location) : after.tree.get? place ≠ start.tree.get? place ↔
      ∃ report ∈ reports,
        report.action = .updated ∧ start.resolve .kept report.path = .ok place := by
  constructor
  · exact done.changed place
  · intro ⟨report, member, updated, found⟩
    obtain ⟨c, -, goal, new, path, -, due, come⟩ := done.due_of_updated member updated
    rw [path, due.found] at found
    obtain rfl := Except.ok.inj found
    rw [come]
    exact due.ne.symm

/-- A file reported as unchanged is canonical. -/
theorem isCanonical_of_unchanged (work : Workload device start all)
    (done : Processed device start all start all after reports) {report : Report}
    (member : report ∈ reports) (unchanged : report.action = .unchanged) :
    ∃ c ∈ all, ∃ goal, report.path = c.path ∧ report.style = some c.style ∧
      start.resolve .kept c.path = .ok goal ∧ IsCanonical after c goal := by
  obtain ⟨c, present, tells⟩ := done.told report member
  cases tells with
  | updated due => contradiction
  | failed _ _ => contradiction
  | @unchanged goal found right =>
    refine ⟨c, present, goal, rfl, rfl, found, ?_⟩
    rcases right with ⟨text, mode, there, canonical⟩ | ⟨new, due⟩
    · have same : after.tree.get? goal = start.tree.get? goal := by
        apply done.reached.get?_eq
        intro d other new due
        obtain rfl := work.single c present d other goal found due.found
        exact due.not_isCanonical ⟨text, mode, there, canonical⟩
      exact ⟨text, mode, same.trans there, canonical⟩
    · exact due.isCanonical (done.complete c present goal new due)

/-- A file that failed is as it was. -/
theorem same_of_failed (work : Workload device start all)
    (done : Processed device start all start all after reports) {report : Report}
    (member : report ∈ reports) (failed : report.action = .failed) {place : Location}
    (found : start.resolve .kept report.path = .ok place) :
    after.tree.get? place = start.tree.get? place := by
  obtain ⟨c, present, tells⟩ := done.told report member
  apply done.reached.get?_eq
  intro d other new due
  rw [tells.path_eq] at found
  obtain rfl := work.single c present d other place found due.found
  exact tells.not_due failed due

/-- A text that the device reads fails only when its file cannot be replaced. -/
theorem isObstructed_of_failed (done : Processed device start all start all after reports)
    {report : Report} (member : report ∈ reports) (failed : report.action = .failed)
    {place : Location} {text : Text} {mode : Nat}
    (found : start.resolve .kept report.path = .ok place)
    (file : start.tree.get? place = some (.file (Utf8.encode text) mode))
    (readable : device.read report.path = none) : isObstructed device start report.path = true := by
  obtain ⟨c, present, tells⟩ := done.told report member
  cases tells with
  | updated due => contradiction
  | unchanged _ _ => contradiction
  | failed reason hindered => exact (hindered place text mode found file readable).2

/-- What no candidate names is as it was. -/
theorem same_of_other (done : Processed device start all start all after reports)
    {place : Location} (other : ∀ c ∈ all, start.resolve .kept c.path ≠ .ok place) :
    after.tree.get? place = start.tree.get? place :=
  done.reached.get?_eq fun c member _ due => other c member due.found

end Processed

end LicenseHeader
