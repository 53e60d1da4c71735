/-!
# Values or faults

A computation that may fail gives a value or a fault. When it gives a value, so does each of its
steps (`ok_of_bind`).
-/

namespace LicenseHeader

variable {ε α β : Type}

/-- A computation that gives a result gives one in its first step, and in the next from this. -/
theorem ok_of_bind {first : Except ε α} {next : α → Except ε β} {result : β}
    (done : first.bind next = .ok result) :
    ∃ value, first = .ok value ∧ next value = .ok result := by
  cases first with
  | error fault => contradiction
  | ok value => exact ⟨value, rfl, done⟩

/-- A result that has a value is this value. -/
theorem eq_ok_of_toOption {result : Except ε α} {value : α} (there : result.toOption = some value) :
    result = .ok value := by
  cases result with
  | error fault => contradiction
  | ok other => exact congrArg Except.ok (Option.some.inj there)

end LicenseHeader
