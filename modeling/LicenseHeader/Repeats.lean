/-!
# Repeats in a list

Of elements that are the same and stand next to each other only the first is kept, so that a list in
which the same elements stand together holds each of them once.
-/

namespace LicenseHeader

/-- The list without elements that are the same as the one before them. -/
def dropRepeats {α : Type} (same : α → α → Bool) : List α → List α
  | [] => []
  | first :: more =>
    match dropRepeats same more with
    | [] => [first]
    | second :: rest => if same first second then first :: rest else first :: second :: rest

/-- Nothing new comes into the list. -/
theorem dropRepeats_sublist {α : Type} (same : α → α → Bool) (list : List α) :
    (dropRepeats same list).Sublist list := by
  fun_induction dropRepeats same list with
  | case1 => exact List.Sublist.refl _
  | case2 first more none ih => simp
  | case3 first more second rest some equal ih =>
    rw [some] at ih
    exact ((List.sublist_cons_self second rest).trans ih).cons_cons first
  | case4 first more second rest some different ih =>
    rw [some] at ih
    exact ih.cons_cons first

end LicenseHeader
