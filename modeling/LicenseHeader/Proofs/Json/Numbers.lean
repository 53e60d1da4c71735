import LicenseHeader.Json.Reader
import LicenseHeader.Proofs.Text.Number

/-!
# Numbers are read back

`IsNumeral` says how a number without a sign is written: a whole part, perhaps a fraction, perhaps
an exponent. A numeral is read to its end when nothing behind it could continue it
(`readNumber_append`), and the digits of a whole number are one (`isNumeral_toString`).
-/

namespace LicenseHeader.JsonValue

/-- Whether a text is one or more digits. -/
structure IsDigits (text : Text) : Prop where
  /-- There is a digit. -/
  filled : text ≠ []
  /-- Nothing else is there. -/
  digits : ∀ c ∈ text, isDigit c = true

/-- Whether a text is the whole part of a number: one zero, or digits that start with no zero. -/
inductive IsWhole : Text → Prop where
  /-- Zero. -/
  | zero : IsWhole ['0']
  /-- Digits that start with no zero. -/
  | digits {c : Char} {more : Text} (nonzero : c ≠ '0') (written : IsDigits (c :: more)) :
    IsWhole (c :: more)

/-- Whether a text is the fraction of a number, or nothing. -/
inductive IsFraction : Text → Prop where
  /-- Nothing. -/
  | absent : IsFraction []
  /-- A point and digits. -/
  | digits {text : Text} (written : IsDigits text) : IsFraction ('.' :: text)

/-- Whether a text is the exponent of a number, or nothing. -/
inductive IsExponent : Text → Prop where
  /-- Nothing. -/
  | absent : IsExponent []
  /-- The letter and digits. -/
  | positive {text : Text} (written : IsDigits text) : IsExponent ('e' :: text)
  /-- The letter, a minus sign and digits. -/
  | negative {text : Text} (written : IsDigits text) : IsExponent ('e' :: '-' :: text)

/-- Whether a text is a number without a sign. -/
inductive IsNumeral : Text → Prop where
  /-- A whole part, a fraction and an exponent. -/
  | parts {whole fraction exponent : Text} (first : IsWhole whole) (second : IsFraction fraction)
    (third : IsExponent exponent) : IsNumeral (whole ++ fraction ++ exponent)

/-- Whether a text behind a number does not continue it. -/
def EndsNumber (rest : Text) : Prop :=
  ∀ c ∈ rest.head?, isDigit c = false ∧ c ≠ '.' ∧ c ≠ 'e' ∧ c ≠ 'E'

/-- Digits are read as far as the text behind them starts with none. -/
theorem readDigits_append {text rest : Text} (written : IsDigits text)
    (stops : ∀ c ∈ rest.head?, isDigit c = false) :
    readDigits (text ++ rest) = some (text, rest) := by
  have untouched : rest.takeWhile isDigit = [] ∧ rest.dropWhile isDigit = rest := by
    cases rest with
    | nil => exact ⟨rfl, rfl⟩
    | cons c more => simp [stops c rfl]
  have taken : (text ++ rest).takeWhile isDigit = text := by
    rw [List.takeWhile_append_of_pos written.digits, untouched.1, List.append_nil]
  have dropped : (text ++ rest).dropWhile isDigit = rest := by
    rw [List.dropWhile_append_of_pos written.digits, untouched.2]
  rw [readDigits, taken, dropped, if_neg (by simpa using written.filled)]

/-- A whole part is read to its end. -/
theorem readWhole_append {text rest : Text} (written : IsWhole text)
    (stops : ∀ c ∈ rest.head?, isDigit c = false) :
    readWhole (text ++ rest) = some (text, rest) := by
  cases written with
  | zero => rfl
  | digits nonzero written =>
    rw [List.cons_append, readWhole, if_neg nonzero]
    exact readDigits_append written stops

/-- A fraction is read to its end. -/
theorem readFraction_append {text rest : Text} (written : IsFraction text)
    (stops : ∀ c ∈ rest.head?, isDigit c = false ∧ c ≠ '.') :
    readFraction (text ++ rest) = some (text, rest) := by
  cases written with
  | absent =>
    rw [List.nil_append, readFraction]
    rintro more rfl
    exact (stops '.' rfl).2 rfl
  | digits written =>
    rw [List.cons_append, readFraction,
      readDigits_append written fun c first => (stops c first).1]
    rfl

/-- The digits of an exponent are read behind no sign. -/
theorem readSign_digits {text : Text} (written : IsDigits text) (rest : Text) :
    readSign (text ++ rest) = ([], text ++ rest) := by
  cases text with
  | nil => exact absurd rfl written.filled
  | cons c more =>
    have digit := written.digits c List.mem_cons_self
    rw [List.cons_append, readSign]
    · rintro _ same
      rw [(List.cons.inj same).1] at digit
      exact absurd digit (by decide)
    · rintro _ same
      rw [(List.cons.inj same).1] at digit
      exact absurd digit (by decide)

/-- An exponent is read to its end. -/
theorem readExponent_append {text rest : Text} (written : IsExponent text)
    (ended : EndsNumber rest) : readExponent (text ++ rest) = some (text, rest) := by
  have stops : ∀ c ∈ rest.head?, isDigit c = false := fun c first => (ended c first).1
  cases written with
  | absent =>
    cases rest with
    | nil => rfl
    | cons c more =>
      obtain ⟨-, -, small, capital⟩ := ended c rfl
      simp [readExponent, small, capital]
  | positive written =>
    simp [readExponent, readSign_digits written, readDigits_append written stops]
  | negative written =>
    simp [readExponent, readSign, readDigits_append written stops]

/-- A number without a sign starts with a digit. -/
theorem IsNumeral.exists_cons {text : Text} (written : IsNumeral text) :
    ∃ c more, text = c :: more ∧ isDigit c = true := by
  obtain ⟨first, -, -⟩ := written
  cases first with
  | zero => exact ⟨_, _, rfl, by decide⟩
  | digits _ written => exact ⟨_, _, rfl, written.digits _ List.mem_cons_self⟩

/-- A number without a sign is read to its end when the text behind it does not continue it. -/
theorem readNumber_append {text rest : Text} (written : IsNumeral text)
    (ended : EndsNumber rest) : readNumber (text ++ rest) = some (text, rest) := by
  obtain ⟨first, second, third⟩ := written
  rename_i whole fraction exponent
  have behindFraction : ∀ c ∈ (exponent ++ rest).head?, isDigit c = false ∧ c ≠ '.' := by
    cases third with
    | absent => exact fun c first => ⟨(ended c first).1, (ended c first).2.1⟩
    | positive | negative => rintro _ ⟨⟩; decide
  have behindWhole : ∀ c ∈ (fraction ++ (exponent ++ rest)).head?, isDigit c = false := by
    cases second with
    | absent => exact fun c first => (behindFraction c first).1
    | digits => rintro _ ⟨⟩; decide
  have unsigned : readUnsigned (whole ++ (fraction ++ (exponent ++ rest))) =
      some (whole ++ fraction ++ exponent, rest) := by
    simp [readUnsigned, readWhole_append first behindWhole,
      readFraction_append second behindFraction, readExponent_append third ended]
  rw [List.append_assoc, List.append_assoc, readNumber]
  · exact unsigned
  · intro more same
    obtain ⟨c, _, start, digit⟩ := (IsNumeral.parts first second third).exists_cons
    rw [← List.append_assoc, ← List.append_assoc, start] at same
    rw [(List.cons.inj same).1] at digit
    exact absurd digit (by decide)

/-- The digits of a whole number are a whole part. -/
theorem isWhole_toString (n : Nat) : IsWhole (toString n).toList := by
  obtain ⟨c, more, written, first, others, zero⟩ := Text.exists_toString n
  by_cases start : c = '0'
  · rw [zero start]
    exact .zero
  · rw [written]
    exact .digits start ⟨List.cons_ne_nil c more, List.forall_mem_cons.mpr ⟨first, others⟩⟩

/-- The digits of a whole number are a number. -/
theorem isNumeral_toString (n : Nat) : IsNumeral (toString n).toList := by
  have whole := IsNumeral.parts (isWhole_toString n) .absent .absent
  rwa [List.append_nil, List.append_nil] at whole

end LicenseHeader.JsonValue
