import LicenseHeader.Decimal.Elapsed
import LicenseHeader.Proofs.Json.Numbers
import Mathlib.Tactic.SplitIfs

/-!
# Decimals are numbers

However the point of a decimal stands, its text is a whole part, a fraction and an exponent
(`Decimal.isNumeral_text`). A decimal that rounds to a binary fraction other than zero is not zero,
so that binary fractions are written as numbers too (`Binary.isNumeral_text`).
-/

namespace LicenseHeader

open JsonValue

namespace Decimal

/-- A character put behind nothing some times. -/
theorem toList_pushn (c : Char) (n : Nat) : ("".pushn c n).toList = List.replicate n c := by
  rw [String.pushn_eq_repeat_push]
  induction n with
  | zero => rfl
  | succ n ih => rw [Nat.repeat, String.toList_push, ih, List.replicate_succ']

/-- Zeros are digits. -/
theorem isDigit_of_mem_replicate {n : Nat} {c : Char} (member : c ∈ List.replicate n '0') :
    isDigit c = true := by
  rw [List.eq_of_mem_replicate member]
  decide

/-- The letter and a whole number, which may be negative, are an exponent. -/
theorem isExponent_toString (n : Int) : IsExponent ('e' :: (toString n).toList) := by
  have digits (m : Nat) : IsDigits (toString m).toList :=
    ⟨by simp [Nat.toDigits_ne_nil], fun _ member => Text.isDigit_of_mem_toString member⟩
  cases n with
  | ofNat m => exact .positive (digits m)
  | negSucc m =>
    have sign : (toString (Int.negSucc m)).toList = '-' :: (toString (m + 1)).toList := by
      rw [Int.toString_eq_repr, Int.repr, String.toList_append]
      rfl
    rw [sign]
    exact .negative (digits (m + 1))

/-- The text of a decimal other than zero is a number. -/
theorem isNumeral_text {d : Decimal} (positive : d.significand ≠ 0) : IsNumeral d.text.toList := by
  obtain ⟨c, more, figures, first, others, zero⟩ := Text.exists_toString d.significand
  have size : (toString d.significand).length = more.length + 1 := by
    rw [← String.length_toList, figures, List.length_cons]
  have whole {front : Text} (digits : ∀ c ∈ front, isDigit c = true) : IsWhole (c :: front) :=
    .digits (fun same => positive (zero same))
      ⟨List.cons_ne_nil c front, List.forall_mem_cons.mpr ⟨first, digits⟩⟩
  rw [Nat.toString_eq_repr, Nat.toList_repr] at figures
  unfold text
  simp only [Bool.and_eq_true, decide_eq_true_eq, size]
  split_ifs with plain integral small single
  · -- The point stands behind the digits and zeros.
    have digits : ∀ c ∈ more ++ List.replicate d.exponent.toNat '0', isDigit c = true :=
      List.forall_mem_append.mpr ⟨others, fun _ => isDigit_of_mem_replicate⟩
    have last : IsDigits ['0'] := ⟨List.cons_ne_nil _ _, List.all_eq_true.mp rfl⟩
    simpa [figures, toList_pushn] using IsNumeral.parts (whole digits) (.digits last) .absent
  · -- The point stands between the digits.
    obtain ⟨place, point⟩ : ∃ place : Nat,
        (((more.length + 1 : Nat) : Int) + d.exponent).toNat = place + 1 :=
      ⟨(more.length + d.exponent).toNat, by omega⟩
    have front : ∀ c ∈ more.take place, isDigit c = true :=
      fun c member => others c (List.mem_of_mem_take member)
    have back : IsDigits (more.drop place) :=
      ⟨List.ne_nil_of_length_pos (by rw [List.length_drop]; omega),
        fun c member => others c (List.mem_of_mem_drop member)⟩
    rw [point]
    simpa [figures] using IsNumeral.parts (whole front) (.digits back) .absent
  · -- The digits stand behind the point and zeros.
    generalize (-(((more.length + 1 : Nat) : Int) + d.exponent)).toNat = zeros
    have digits : IsDigits (List.replicate zeros '0' ++ c :: more) :=
      ⟨by simp, List.forall_mem_append.mpr
        ⟨fun _ => isDigit_of_mem_replicate, List.forall_mem_cons.mpr ⟨first, others⟩⟩⟩
    simpa [figures, toList_pushn] using IsNumeral.parts .zero (.digits digits) .absent
  · -- One digit has an exponent.
    generalize ((more.length + 1 : Nat) : Int) + d.exponent - 1 = exponent
    have alone := whole (List.forall_mem_nil _)
    simpa [figures] using IsNumeral.parts alone .absent (isExponent_toString exponent)
  · -- The point stands behind the first of the digits, and these have an exponent.
    generalize ((more.length + 1 : Nat) : Int) + d.exponent - 1 = exponent
    have alone := whole (List.forall_mem_nil _)
    have back : IsDigits more :=
      ⟨fun empty => single (by rw [empty]; rfl), others⟩
    simpa [figures] using IsNumeral.parts alone (.digits back) (isExponent_toString exponent)

/-- Taking zeros off the end of a decimal other than zero leaves another than zero. -/
theorem significand_dropZeros {d : Decimal} (positive : d.significand ≠ 0) (fuel : Nat) :
    (d.dropZeros fuel).significand ≠ 0 := by
  induction fuel generalizing d with
  | zero => exact positive
  | succ fuel ih =>
    unfold dropZeros
    split
    · exact ih (show d.significand / 10 ≠ 0 by omega)
    · exact positive

end Decimal

namespace Binary

/-- The numbers that round to a binary fraction other than zero lie above zero. -/
theorem lowerEnd_positive {b : Binary} (positive : b.mantissa ≠ 0) : 0 < b.lowerEnd.numerator := by
  refine Nat.mul_pos ?_ (Nat.pow_pos (by decide))
  unfold lowerEnd
  dsimp only
  split <;> omega

/-- A decimal that rounds to a binary fraction other than zero is not zero. -/
theorem significand_of_accepts {b : Binary} {d : Decimal} (positive : b.mantissa ≠ 0)
    (accepted : b.accepts d = true) : d.significand ≠ 0 := by
  intro zero
  have lower : 0 < b.lowerEnd.numerator * d.denominator :=
    Nat.mul_pos (lowerEnd_positive positive) (Nat.pow_pos (by decide))
  have nothing : d.numerator * b.lowerEnd.denominator = 0 := by
    rw [Decimal.numerator, zero, Nat.zero_mul, Nat.zero_mul]
  unfold accepts at accepted
  split at accepted
  · simp [Decimal.below, nothing, lower] at accepted
  · simp [Decimal.above, nothing] at accepted

/-- The decimal that is nearest rounds to the binary fraction. -/
theorem accepts_of_nearest? {b : Binary} {exponent : Int} {d : Decimal}
    (found : b.nearest? exponent = some d) : b.accepts d = true := by
  unfold nearest? at found
  dsimp only at found
  split_ifs at found with near low high
  · exact Option.some.inj found ▸ near
  · exact Option.some.inj found ▸ low
  · exact Option.some.inj found ▸ high

/-- The text of a binary fraction is a number. -/
theorem isNumeral_text (b : Binary) : IsNumeral b.text.toList := by
  unfold text
  split
  · have tenths : IsDigits ['0'] := ⟨List.cons_ne_nil _ _, List.all_eq_true.mp rfl⟩
    exact .parts .zero (.digits tenths) .absent
  · rename_i positive
    unfold shortest
    dsimp only
    cases found : (List.range 17).findSome? fun count : Nat =>
        b.nearest? (b.places - (count + 1)) with
    | none =>
      -- Whether seventeen digits suffice does not matter: zero would be written with an exponent.
      have power : IsDigits ['1', '7'] := ⟨List.cons_ne_nil _ _, List.all_eq_true.mp rfl⟩
      have written : (Decimal.dropZeros 17 ⟨0, 0⟩).text = "0e17" := by decide +kernel
      rw [Option.getD_none, written]
      exact .parts .zero .absent (.positive power)
    | some d =>
      obtain ⟨count, _, nearest⟩ := List.exists_of_findSome?_eq_some found
      have filled := significand_of_accepts positive (accepts_of_nearest? nearest)
      exact Decimal.isNumeral_text (Decimal.significand_dropZeros filled 17)

end Binary

end LicenseHeader
