import LicenseHeader.Proofs.Batch.Again
import LicenseHeader.Proofs.Batch.Reports

/-!
# Rewritten files

Which files a run rewrites is told by the files in which it starts: those for which one of its
candidates plans another text that nothing keeps from being written (`exists_rewrites`,
`get?_ne_of_rewrites`). All other places stay as they are, except that a staging file which cannot be
removed is left (`absent_process`).
-/

namespace LicenseHeader

open Replacement

/-- A candidate that leads to a file, plans another text for it, and is kept by nothing from writing
it. -/
structure Candidate.Rewrites (device : Device) (start : FileSystem) (c : Candidate)
    (goal : Location) : Prop where
  /-- The candidate leads to the location. -/
  aims : c.Aims start goal
  /-- Another text is planned. -/
  planned : ∃ new, c.plan device (start.tree.get? goal) = .ok (some new)
  /-- Nothing obstructs it. -/
  free : isObstructed device start c.path = false

/-- A candidate for a text that has no header rewrites it, if nothing keeps it from that. -/
theorem Candidate.Rewrites.of_made {device : Device} {start : FileSystem} {c : Candidate}
    {goal : Location} {text new : Text} {mode : Nat}
    (found : start.resolve .kept c.path = .ok goal)
    (there : start.tree.get? goal = some (.file (Utf8.encode text) mode))
    (readable : device.read c.path = none) (made : normalize c.style text = some new)
    (free : isObstructed device start c.path = false) : c.Rewrites device start goal where
  aims := ⟨found, FileTree.isLeaf_of_file there⟩
  planned := ⟨new, Candidate.plan_eq_ok_iff.mpr
    ⟨text, Candidate.textOf_eq_ok_iff.mpr ⟨readable, mode, there⟩, made⟩⟩
  free := free

/-- The place of a staging file stays as it is, or the staging file is made there and leaves
nothing, if what it leaves can be removed. -/
theorem Candidate.staging_work (device : Device) (start : FileSystem) (c : Candidate)
    (cell : Cell) : (c.work device start cell).staging = cell.staging ∨
    (start.resolve .created (stagingPath c.path)).isOk = true ∧
      (device.remove (stagingPath c.path) = none → (c.work device start cell).staging = none) := by
  unfold work
  split
  next new planned =>
    cases blocked : isObstructed device start c.path with
    | true =>
      rw [if_pos rfl]
      split
      next opened =>
        refine .inr ⟨opened, fun removes => ?_⟩
        unfold leftover
        rw [removes]
        rfl
      · exact .inl rfl
    | false => exact .inr ⟨isOk_of_free blocked, fun _ => rfl⟩
  · exact .inl rfl

section Run

variable {batch : Batch} {device : Device} {start now after : FileSystem} {c d : Candidate}
  {goal : Location} {candidates : List Candidate}

/-- A candidate that changes a file as it was at the start rewrites it. -/
theorem Worked.rewrites (worked : Worked device start now d after)
    (made : Candidate.ofPath? c.path = some c) (other : Candidate.ofPath? d.path = some d)
    (aims : c.Aims start goal) (level : now.tree.get? goal = start.tree.get? goal) :
    after.tree.get? goal = now.tree.get? goal ∨ d.Rewrites device start goal := by
  rcases aims.or_apart d with also | apart
  · have cell := congrArg Cell.file (worked.cell goal also)
    unfold Candidate.work at cell
    split at cell
    next new planned =>
      cases blocked : isObstructed device start d.path with
      | true =>
        rw [blocked, if_pos rfl] at cell
        left
        split at cell
        · exact cell
        · exact cell
      | false => exact .inr ⟨also, ⟨new, level ▸ planned⟩, blocked⟩
    · exact .inl cell
  · exact .inl (congrArg Cell.file (worked.cellAt_eq other made apart aims))

section Process

variable (writes : batch.checkOnly = false) (device : Device)
  (tidy : ∀ d ∈ candidates, Tidy start d)

include writes tidy

/-- A file that is changed by processing candidates is one that a candidate rewrites. -/
theorem exists_rewrites (same : start.Resembles now) (made : Candidate.ofPath? c.path = some c)
    (aims : c.Aims start goal) (level : now.tree.get? goal = start.tree.get? goal)
    (changed : (batch.process device now candidates).files.tree.get? goal ≠ now.tree.get? goal) :
    ∃ d ∈ candidates, d.Rewrites device start goal := by
  induction candidates generalizing now with
  | nil => exact absurd rfl changed
  | cons d more ih =>
    have first := tidy d List.mem_cons_self
    have worked := (worked_processFile writes device first same).1
    rcases worked.rewrites made first.made aims level with still | rewrites
    · obtain ⟨e, later, rewrites⟩ := ih (fun e member => tidy e (List.mem_cons_of_mem d member))
        worked.resembles (still.trans level) (still.symm ▸ changed)
      exact ⟨e, List.mem_cons_of_mem d later, rewrites⟩
    · exact ⟨d, List.mem_cons_self, rewrites⟩

/-- A file that a candidate rewrites is changed by processing the candidates. -/
theorem get?_ne_of_rewrites (member : c ∈ candidates) (rewrites : c.Rewrites device start goal) :
    (batch.process device start candidates).files.tree.get? goal ≠ start.tree.get? goal := by
  obtain ⟨aims, ⟨new, planned⟩, free⟩ := rewrites
  obtain ⟨front, back, rfl⟩ := List.append_of_mem member
  have before : ∀ d ∈ front, Tidy start d := fun d here => tidy d (List.mem_append_left _ here)
  have behind : ∀ d ∈ c :: back, Tidy start d := fun d here => tidy d (List.mem_append_right _ here)
  have made := (behind c List.mem_cons_self).made
  have same := (frame_process writes device before (.refl start)).1
  rw [Batch.process_append]
  dsimp only
  intro level
  rcases get?_or_isCanonical writes device before (.refl start) made aims with
    still | ⟨-, canonical⟩
  · rw [← still] at planned level
    have blocked := isObstructed_of_planned writes behind same aims planned level.symm
    rw [blocked] at free
    contradiction
  · have kept := congrArg Cell.file
      (cellAt_of_isCanonical writes device behind same made aims canonical)
    have right := plan_of_isCanonical (canonical.of_eq (level.symm.trans kept)) device
    rw [planned] at right
    split at right
    · contradiction
    · exact absurd (Except.ok.inj right) (by simp)

/-- The file of a candidate stays as it is, or its text gets its normal form. -/
theorem get?_or_rewritten (same : start.Resembles now) (made : Candidate.ofPath? c.path = some c)
    (aims : c.Aims start goal) :
    (batch.process device now candidates).files.tree.get? goal = now.tree.get? goal ∨
      ∃ text mode new, now.tree.get? goal = some (.file (Utf8.encode text) mode) ∧
        normalize c.style text = some new ∧
        (batch.process device now candidates).files.tree.get? goal =
          some (.file (Utf8.encode new) mode) := by
  induction candidates generalizing now with
  | nil => exact .inl rfl
  | cons d more ih =>
    have first := tidy d List.mem_cons_self
    have others := fun e member => tidy e (List.mem_cons_of_mem d member)
    have worked := (worked_processFile writes device first same).1
    have onward (level : (batch.processFile device now d).files.tree.get? goal =
        now.tree.get? goal) :
        (batch.process device now (d :: more)).files.tree.get? goal = now.tree.get? goal ∨
          ∃ text mode new, now.tree.get? goal = some (.file (Utf8.encode text) mode) ∧
            normalize c.style text = some new ∧
            (batch.process device now (d :: more)).files.tree.get? goal =
              some (.file (Utf8.encode new) mode) := by
      rcases ih others worked.resembles with still | ⟨text, mode, new, there, rest⟩
      · exact .inl (still.trans level)
      · exact .inr ⟨text, mode, new, level.symm.trans there, rest⟩
    rcases aims.or_apart d with also | apart
    · have cell := congrArg Cell.file (worked.cell goal also)
      have style := Candidate.style_eq made first.made aims.found also.found aims.ne_directory
      rcases Candidate.file_work device start d (now.tree.cellAt goal) with
        still | ⟨text, mode, new, there, rebuilt, written⟩
      · exact onward (cell.trans still)
      · -- The text is canonical now, so that the others leave it.
        right
        have canonical : IsCanonical (batch.processFile device now d).files c goal := by
          refine ⟨new, mode, cell.trans written, ?_⟩
          rw [style]
          exact normalize_of_prefix (header_prefix_of_made rebuilt)
        have kept := congrArg Cell.file
          (cellAt_of_isCanonical writes device others worked.resembles made aims canonical)
        exact ⟨text, mode, new, there, style ▸ rebuilt, kept.trans (cell.trans written)⟩
    · exact onward (congrArg Cell.file (worked.cellAt_eq first.made made apart aims))

/-- The place of the staging file stays as it is, or a candidate puts its staging file there and
leaves nothing, if what it leaves can be removed. -/
theorem staging_process (same : start.Resembles now) (made : Candidate.ofPath? c.path = some c)
    (aims : c.Aims start goal) :
    let done := (batch.process device now candidates).files.tree.get? (stagingPlace goal)
    done = now.tree.get? (stagingPlace goal) ∨
      (∃ d ∈ candidates, d.Aims start goal ∧
        (start.resolve .created (stagingPath d.path)).isOk = true) ∧
      ((∀ d ∈ candidates, device.remove (stagingPath d.path) = none) → done = none) := by
  induction candidates generalizing now with
  | nil => exact .inl rfl
  | cons d more ih =>
    have first := tidy d List.mem_cons_self
    have worked := (worked_processFile writes device first same).1
    have rest := ih (fun e member => tidy e (List.mem_cons_of_mem d member)) worked.resembles
    have step : (batch.processFile device now d).files.tree.get? (stagingPlace goal) =
        now.tree.get? (stagingPlace goal) ∨
        d.Aims start goal ∧ (start.resolve .created (stagingPath d.path)).isOk = true ∧
          (device.remove (stagingPath d.path) = none →
            (batch.processFile device now d).files.tree.get? (stagingPlace goal) = none) := by
      rcases aims.or_apart d with also | apart
      · have cell := congrArg Cell.staging (worked.cell goal also)
        rcases Candidate.staging_work device start d (now.tree.cellAt goal) with
          still | ⟨opened, removed⟩
        · exact .inl (cell.trans still)
        · exact .inr ⟨also, opened, fun removes => cell.trans (removed removes)⟩
      · exact .inl (congrArg Cell.staging (worked.cellAt_eq first.made made apart aims))
    rcases rest with still | ⟨⟨e, later, there⟩, none⟩
    · rcases step with level | ⟨also, opened, none⟩
      · exact .inl (still.trans level)
      · exact .inr ⟨⟨d, List.mem_cons_self, also, opened⟩,
          fun removes => still.trans (none (removes d List.mem_cons_self))⟩
    · exact .inr ⟨⟨e, List.mem_cons_of_mem d later, there⟩,
        fun removes => none fun f member => removes f (List.mem_cons_of_mem d member)⟩

/-- A place stays as it is unless a candidate leads there or has its staging file there. -/
theorem get?_or_reached (place : Location) :
    (batch.process device start candidates).files.tree.get? place = start.tree.get? place ∨
      ∃ c ∈ candidates, ∃ goal, c.Aims start goal ∧
        (place = goal ∨ place = stagingPlace goal) := by
  by_cases reached : ∃ c ∈ candidates, ∃ goal, c.Aims start goal ∧
      (place = goal ∨ place = stagingPlace goal)
  · exact .inr reached
  · refine .inl ((frame_process writes device tidy (.refl start)).2 place ?_)
    intro c member goal aims
    exact ⟨fun here => reached ⟨c, member, goal, aims, .inl here⟩,
      fun here => reached ⟨c, member, goal, aims, .inr here⟩⟩

/-- Nothing is left where nothing was, if staging files can be removed. -/
theorem absent_process (removes : ∀ c ∈ candidates, device.remove (stagingPath c.path) = none)
    {place : Location} (absent : start.tree.get? place = none) :
    (batch.process device start candidates).files.tree.get? place = none := by
  rcases get?_or_reached writes device tidy place with
    still | ⟨c, member, goal, aims, rfl | rfl⟩
  · exact still.trans absent
  · rcases get?_or_rewritten writes device tidy (.refl start) (tidy c member).made aims with
      still | ⟨text, mode, new, there, -⟩
    · exact still.trans absent
    · rw [absent] at there
      contradiction
  · rcases staging_process writes device tidy (.refl start) (tidy c member).made aims with
      still | ⟨-, none⟩
    · exact still.trans absent
    · exact none removes

end Process

end Run

end LicenseHeader
