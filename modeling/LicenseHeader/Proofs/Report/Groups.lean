import LicenseHeader.Proofs.Batch.Mentions

/-!
# Groups and counts of reports

Reports are divided by their actions, each group in the order of paths and reports of one path as
they were made (`Groups.sorts_group`), and the counts of a summary are the lengths of the groups
(`Groups.tallies_ofReports`). So no report is lost or counted twice.
-/

namespace LicenseHeader

/-- Paths stand before each other exactly when they have the same components. -/
theorem Path.le_and_le (p q : Path) :
    (p.le q && q.le p) = decide (q.components = p.components) := by
  rw [Bool.eq_iff_iff, Bool.and_eq_true, decide_eq_true_eq]
  constructor
  · rintro ⟨first, second⟩
    exact (Path.le_antisymm first second).symm
  · intro same
    exact ⟨Path.le_of_components_eq same.symm, Path.le_of_components_eq same⟩

/-- The count of an action in a summary. -/
def Summary.ofAction (summary : Summary) : Action → Nat
  | .updated => summary.updated
  | .unchanged => summary.unchanged
  | .failed => summary.failed
  | .ignored => summary.ignored

namespace Groups

/-- The group of an action. -/
def ofAction (groups : Groups) : Action → List Report
  | .updated => groups.updated
  | .unchanged => groups.unchanged
  | .failed => groups.failed
  | .ignored => groups.ignored

/-- All groups behind each other. -/
def together (groups : Groups) : List Report :=
  groups.updated ++ groups.unchanged ++ groups.failed ++ groups.ignored

/-- The group of an action is made from the reports of this action. -/
theorem ofAction_ofReports (reports : List Report) (action : Action) :
    (ofReports reports).ofAction action = group reports action := by
  cases action <;> rfl

/-- Whether a list holds the reports of an action in the order of their paths. -/
structure Sorts (reports : List Report) (action : Action) (sorted : List Report) : Prop where
  /-- It holds these reports, each as often as there are. -/
  members : sorted.Perm (reports.filter (·.action = action))
  /-- They are in the order of their paths. -/
  ordered : sorted.Pairwise fun a b => a.path.le b.path = true
  /-- The reports of one path stand as they were made. -/
  stable : ∀ path : Path, sorted.filter (·.path.components = path.components) =
    reports.filter fun report =>
      decide (report.action = action) && decide (report.path.components = path.components)

/-- A group holds the reports of its action in the order of their paths. -/
theorem sorts_group (reports : List Report) (action : Action) :
    Sorts reports action (group reports action) where
  members := List.mergeSort_perm _ _
  ordered := List.pairwise_mergeSort (fun a b c => Path.le_trans a.path b.path c.path)
    (fun a b => Path.le_total a.path b.path) _
  stable path := by
    have trans (a b c : Report) : a.path.le b.path = true → b.path.le c.path = true →
        a.path.le c.path = true := Path.le_trans a.path b.path c.path
    have total (a b : Report) : (a.path.le b.path || b.path.le a.path) = true :=
      Path.le_total a.path b.path
    have kept := filter_mergeSort trans total (reports.filter (·.action = action))
      ⟨path, none, action, none⟩
    simp only [Path.le_and_le, List.filter_filter] at kept
    unfold group
    rw [kept]
    exact List.filter_congr fun report _ => Bool.and_comm _ _

/-- A report is in the group of its action as often as it was made, and in no other. -/
theorem count_group (reports : List Report) (action : Action) (report : Report) :
    (group reports action).count report =
      if report.action = action then reports.count report else 0 := by
  rw [(sorts_group reports action).members.count_eq]
  by_cases same : report.action = action
  · rw [if_pos same, List.count_filter (by simpa using same)]
  · rw [if_neg same, List.count_eq_zero]
    intro member
    exact same (by simpa using (List.mem_filter.mp member).2)

/-- The groups together hold the reports, each as often as it was made. -/
theorem perm_together (reports : List Report) : (ofReports reports).together.Perm reports := by
  rw [List.perm_iff_count]
  intro report
  unfold together ofReports
  simp only [List.count_append, count_group]
  cases report.action <;> simp

/-- The length of a group is the count of its action. -/
theorem length_group (reports : List Report) (action : Action) :
    (group reports action).length = Summary.count reports action := by
  unfold Summary.count
  rw [(sorts_group reports action).members.length_eq, List.countP_eq_length_filter]

/-- Whether groups and a summary tell of the same reports. -/
structure Tallies (reports : List Report) (groups : Groups) (summary : Summary) : Prop where
  /-- The groups together hold the reports. -/
  whole : groups.together.Perm reports
  /-- Each group holds the reports of its action in the order of their paths. -/
  sorts : ∀ action, Sorts reports action (groups.ofAction action)
  /-- Each count is the length of its group. -/
  counts : ∀ action, summary.ofAction action = (groups.ofAction action).length
  /-- The counts add up to the number of files, which is that of the reports. -/
  total : summary.updated + summary.unchanged + summary.failed + summary.ignored =
    summary.total ∧ summary.total = reports.length
  /-- Files failed exactly when their group is not empty. -/
  failures : summary.hasFailures = true ↔ groups.failed ≠ []

/-- The groups and the summary of reports tell of the same reports. -/
theorem tallies_ofReports (reports : List Report) (elapsed : Elapsed) :
    Tallies reports (ofReports reports) (Summary.ofReports reports elapsed) where
  whole := perm_together reports
  sorts action := by
    rw [ofAction_ofReports]
    exact sorts_group reports action
  counts action := by
    rw [ofAction_ofReports, length_group]
    cases action <;> rfl
  total := by
    have whole := (perm_together reports).length_eq
    unfold together ofReports at whole
    simp only [List.length_append, length_group] at whole
    exact ⟨whole, rfl⟩
  failures := by
    have length := length_group reports .failed
    unfold Summary.hasFailures
    rw [decide_eq_true_eq, ← List.length_pos_iff]
    show 0 < Summary.count reports .failed ↔ 0 < (group reports .failed).length
    rw [length]

end Groups

end LicenseHeader
