import LicenseHeader.Proofs.Text.Lines

/-!
# The rows of a text with line feeds

A text is cut into rows behind its line feeds, whatever stands behind them (`Text.rows_append`).
Lines that end with their only line feed, put together, have one row each, which is the line without
its terminator (`Text.rows_flatten`).
-/

namespace LicenseHeader.Text

/-- Whether a line ends with a line feed, its only one. -/
def Fed (line : Text) : Prop := ∃ body, line = body ++ ['\n'] ∧ '\n' ∉ body

/-- A line that ends with its only line feed, as a row: without the line feed and a carriage return
in front of it. -/
def rowOf (line : Text) : Text := dropLastReturn line.dropLast

/-- A row under way goes on up to the first line feed. -/
theorem go_of_not_mem {body : Text} (plain : '\n' ∉ body) (row rest : Text) :
    rows.go row (body ++ '\n' :: rest) = dropLastReturn (row.reverse ++ body) :: rows rest := by
  induction body generalizing row with
  | nil =>
    rw [List.nil_append, List.append_nil, rows.go, if_pos rfl]
    rfl
  | cons c body ih =>
    have apart := List.ne_of_not_mem_cons plain
    rw [List.cons_append, rows.go, if_neg apart.symm,
      ih (List.not_mem_of_not_mem_cons plain), List.reverse_cons,
      List.append_assoc, List.singleton_append]

/-- A row under way and the rows behind it, cut behind a line feed. -/
theorem go_append (row front rest : Text) :
    rows.go row (front ++ '\n' :: rest) = rows.go row (front ++ ['\n']) ++ rows rest := by
  induction front generalizing row with
  | nil => rfl
  | cons c front ih =>
    rw [List.cons_append, List.cons_append, rows.go, rows.go]
    split
    · rw [ih, List.cons_append]
    · exact ih (c :: row)

/-- The rows of a text cut behind a line feed. -/
theorem rows_append (front rest : Text) :
    rows (front ++ '\n' :: rest) = rows (front ++ ['\n']) ++ rows rest :=
  go_append [] front rest

/-- A line that ends with its only line feed is the first row. -/
theorem rows_of_fed {line : Text} (fed : Fed line) (rest : Text) :
    rows (line ++ rest) = rowOf line :: rows rest := by
  obtain ⟨body, rfl, plain⟩ := fed
  rw [List.append_assoc, List.singleton_append, rowOf, List.dropLast_concat]
  exact go_of_not_mem plain [] rest

/-- Lines that end with their only line feed have one row each. -/
theorem rows_flatten {all : List Text} (fed : ∀ line ∈ all, Fed line) :
    rows all.flatten = all.map rowOf := by
  induction all with
  | nil => rfl
  | cons line more ih =>
    obtain ⟨first, others⟩ := List.forall_mem_cons.mp fed
    rw [List.flatten_cons, rows_of_fed first, ih others, List.map_cons]

/-- A line with a terminator that ends with a line feed has no other one. -/
theorem Ended.fed {line : Text} (ended : Ended line) (last : line.getLast? = some '\n') :
    Fed line := by
  obtain ⟨body, stop, rest, rfl, unbroken, ends⟩ := ended
  have plain : '\n' ∉ body := fun member => absurd (unbroken '\n' member) (by decide)
  cases ends with
  | feed => exact ⟨body, rfl, plain⟩
  | both => exact ⟨body ++ ['\r'], by simp, by simpa using plain⟩
  | carriage => simp at last

/-- What stands in front of a line feed, or of a carriage return and a line feed, is the row. -/
theorem rowOf_append {body stop : Text} (unbroken : Unbroken body)
    (ends : stop = ['\n'] ∨ stop = ['\r', '\n']) : rowOf (body ++ stop) = body := by
  have solid : body.getLast? ≠ some '\r' := fun last =>
    absurd (unbroken '\r' (List.mem_of_getLast? last)) (by decide)
  unfold rowOf
  obtain rfl | rfl := ends
  · rw [List.dropLast_concat, dropLastReturn, if_neg solid]
  · simp [dropLastReturn]

/-- A line that ends with a line feed is a row without line breaks and what ends it. -/
theorem exists_rowOf {line : Text} (ended : Ended line) (last : line.getLast? = some '\n') :
    ∃ stop, (stop = ['\n'] ∨ stop = ['\r', '\n']) ∧ line = rowOf line ++ stop ∧
      Unbroken (rowOf line) := by
  obtain ⟨body, stop, rest, rfl, unbroken, ends⟩ := ended
  have feeds : stop = ['\n'] ∨ stop = ['\r', '\n'] := by
    cases ends with
    | feed => exact .inl rfl
    | both => exact .inr rfl
    | carriage => simp at last
  rw [rowOf_append unbroken feeds]
  exact ⟨stop, feeds, rfl, unbroken⟩

/-- A character that is no line break, in front of a line, is the first of the row. -/
theorem rowOf_cons {c : Char} {line : Text} (apart : isBreak c = false) (ended : Ended line)
    (last : line.getLast? = some '\n') : rowOf (c :: line) = c :: rowOf line := by
  obtain ⟨stop, feeds, whole, unbroken⟩ := exists_rowOf ended last
  have longer := rowOf_append (unbroken_cons.mpr ⟨apart, unbroken⟩) feeds
  rwa [List.cons_append, ← whole] at longer

/-- A row starts with characters that are no line breaks exactly when the line does. -/
theorem prefix_rowOf_iff {start line : Text} (unbroken : Unbroken start) (ended : Ended line)
    (last : line.getLast? = some '\n') : start <+: rowOf line ↔ start <+: line := by
  obtain ⟨stop, feeds, whole, -⟩ := exists_rowOf ended last
  constructor
  · intro starts
    rw [whole]
    exact starts.trans (List.prefix_append ..)
  · intro starts
    rw [whole] at starts
    obtain short | ⟨more, rfl⟩ := List.prefix_or_prefix_of_prefix starts (List.prefix_append ..)
    · exact short
    · -- What goes on behind the row would be a line break.
      have behind := (List.prefix_append_right_inj _).mp starts
      have others := (unbroken_append.mp unbroken).2
      cases more with
      | nil => simp
      | cons c more =>
        have apart := others c List.mem_cons_self
        obtain rfl | rfl := feeds
        · obtain ⟨rfl, -⟩ := List.cons_prefix_cons.mp behind
          contradiction
        · obtain ⟨rfl, -⟩ := List.cons_prefix_cons.mp behind
          contradiction

end LicenseHeader.Text
