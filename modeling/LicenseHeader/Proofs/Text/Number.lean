import LicenseHeader.Text.Number

/-!
# Whole numbers in decimal digits

The digits of a number are read as the number (`number?_toString`), and they start with a zero for
zero only (`exists_toString`).
-/

namespace LicenseHeader.Text

/-- The digits of a number are digits. -/
theorem isDigit_of_mem_toString {n : Nat} {c : Char} (member : c ∈ (toString n).toList) :
    c.isDigit = true := by
  rw [Nat.toString_eq_repr, Nat.toList_repr] at member
  exact Nat.isDigit_of_mem_toDigits (by decide) (by decide) member

/-- A number written in digits is read as the number. -/
theorem number?_toString (n : Nat) : Text.number? (toString n).toList = some n := by
  have plain : ∀ c ∈ (toString n).toList, c.isDigit = true :=
    fun _ member => isDigit_of_mem_toString member
  have filled : (toString n).toList ≠ [] := by simp [Nat.toDigits_ne_nil]
  have value : Nat.ofDigitChars 10 (toString n).toList 0 = n := by
    rw [Nat.toString_eq_repr, Nat.toList_repr, Nat.ofDigitChars_ten_toDigits]
  generalize (toString n).toList = written at *
  cases written with
  | nil => exact absurd rfl filled
  | cons first rest =>
    have unsigned : first ≠ '+' := by
      rintro rfl
      exact absurd (plain '+' List.mem_cons_self) (by decide)
    have digits : (first :: rest).all Char.isDigit = true := List.all_eq_true.mpr plain
    have read : Text.number? (first :: rest) = some (Nat.ofDigitChars 10 (first :: rest) 0) := by
      simp [Text.number?, Nat.ofDigitChars, unsigned, digits]
    rw [read, value]

/-- The digits of a number that is not zero start with another digit than zero. -/
theorem head?_toDigits {n : Nat} (positive : n ≠ 0) : (Nat.toDigits 10 n).head? ≠ some '0' := by
  induction n using Nat.strongRecOn with
  | ind n ih =>
    rcases Nat.lt_or_ge n 10 with small | large
    · have every : ∀ digit : Fin 10, digit.val ≠ 0 →
          (Nat.toDigits 10 digit.val).head? ≠ some '0' := by decide
      exact every ⟨n, small⟩ positive
    · have first : (Nat.toDigits 10 n).head? = (Nat.toDigits 10 (n / 10)).head? := by
        obtain ⟨c, more, front⟩ := List.exists_cons_of_ne_nil
          (Nat.toDigits_ne_nil (n := n / 10) (b := 10))
        rw [Nat.toDigits_of_base_le (by decide) large, front]
        rfl
      rw [first]
      exact ih (n / 10) (by omega) (by omega)

/-- The digits of a number are a first one and more, and the first is a zero for zero alone. -/
theorem exists_toString (n : Nat) : ∃ c more, (toString n).toList = c :: more ∧
    c.isDigit = true ∧ (∀ d ∈ more, d.isDigit = true) ∧ (c = '0' → n = 0) := by
  obtain ⟨c, more, written⟩ : ∃ c more, (toString n).toList = c :: more :=
    List.exists_cons_of_ne_nil (by simp [Nat.toDigits_ne_nil])
  have digits : ∀ d ∈ c :: more, d.isDigit = true :=
    fun _ member => isDigit_of_mem_toString (written ▸ member)
  refine ⟨c, more, written, digits c List.mem_cons_self,
    fun d member => digits d (List.mem_cons_of_mem c member), ?_⟩
  rintro rfl
  refine Decidable.by_contra fun positive => ?_
  rw [Nat.toString_eq_repr, Nat.toList_repr] at written
  exact head?_toDigits positive (by rw [written]; rfl)

end LicenseHeader.Text
