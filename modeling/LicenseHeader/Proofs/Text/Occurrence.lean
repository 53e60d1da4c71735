import LicenseHeader.Text.Line

/-!
# The first occurrence of a pattern

`Text.splitAt?` finds a pattern wherever it stands first: what it returns is the only way to cut the
text around a first occurrence (`Text.splitAt?_eq_some_iff`), and it finds nothing exactly when the
pattern stands nowhere (`Text.splitAt?_eq_none_iff`).
-/

namespace LicenseHeader.Text

/-- Whether the pattern behind `before` is the first one: none ends before it does. -/
def IsFirst (pattern before : Text) : Prop :=
  ∀ earlier rest, before ++ pattern = earlier ++ pattern ++ rest → rest = []

/-- With nothing in front of it, a pattern is the first one. -/
theorem isFirst_nil (pattern : Text) : IsFirst pattern [] := by
  intro earlier rest same
  have lengths := congrArg List.length same
  simp only [List.nil_append, List.length_append] at lengths
  exact List.length_eq_zero_iff.mp (by omega)

/-- A pattern that is first behind some text is first behind every end of it. -/
theorem IsFirst.of_cons {pattern before : Text} {c : Char} (first : IsFirst pattern (c :: before)) :
    IsFirst pattern before := by
  intro earlier rest same
  apply first (c :: earlier) rest
  rw [List.cons_append, same]
  rfl

/-- A text does not start with a pattern that is first further on. -/
theorem IsFirst.not_prefix {pattern before : Text} {c : Char} (after : Text)
    (first : IsFirst pattern (c :: before)) : ¬ pattern <+: c :: before ++ pattern ++ after := by
  intro starts
  have shorter : pattern <+: c :: before ++ pattern := by
    apply List.prefix_of_prefix_length_le starts (List.prefix_append _ after)
    rw [List.length_append]
    omega
  obtain ⟨rest, whole⟩ := shorter
  have empty := first [] rest (by rw [List.nil_append, whole])
  have lengths := congrArg List.length whole
  rw [empty] at lengths
  simp only [List.append_nil, List.length_append, List.length_cons] at lengths
  omega

/-- A pattern is first behind one more character when the text does not start with it. -/
theorem IsFirst.cons {pattern before after : Text} {c : Char} (first : IsFirst pattern before)
    (other : ¬ pattern <+: c :: before ++ pattern ++ after) : IsFirst pattern (c :: before) := by
  intro earlier rest same
  cases earlier with
  | nil =>
    refine absurd ?_ other
    rw [same]
    exact ⟨rest ++ after, by simp⟩
  | cons d earlier =>
    rw [List.cons_append, List.cons_append, List.cons_append] at same
    exact first earlier rest (List.cons.inj same).2

/-- A search finds the first occurrence of a pattern. -/
theorem splitAt?_of_isFirst {pattern before : Text} (after : Text)
    (first : IsFirst pattern before) :
    splitAt? pattern (before ++ pattern ++ after) = some (before, after) := by
  induction before with
  | nil =>
    rw [List.nil_append]
    have starts : pattern.isPrefixOf (pattern ++ after) = true :=
      List.isPrefixOf_iff_prefix.mpr (List.prefix_append pattern after)
    have rest : (pattern ++ after).drop pattern.length = after := List.drop_left
    cases whole : pattern ++ after with
    | nil =>
      obtain ⟨rfl, rfl⟩ := List.append_eq_nil_iff.mp whole
      rfl
    | cons c more =>
      rw [whole] at starts rest
      rw [splitAt?, if_pos starts, rest]
  | cons c before ih =>
    have other : ¬ pattern.isPrefixOf (c :: (before ++ pattern ++ after)) = true := by
      rw [List.isPrefixOf_iff_prefix]
      exact first.not_prefix after
    show splitAt? pattern (c :: (before ++ pattern ++ after)) = _
    rw [splitAt?, if_neg other, ih first.of_cons]
    rfl

/-- What a search returns stands around a first occurrence. -/
theorem isFirst_of_splitAt? {pattern text before after : Text}
    (found : splitAt? pattern text = some (before, after)) : IsFirst pattern before := by
  induction text generalizing before with
  | nil =>
    unfold splitAt? at found
    split at found
    · obtain ⟨rfl, rfl⟩ : [] = before ∧ [] = after := by simpa using found
      exact isFirst_nil pattern
    · contradiction
  | cons c rest ih =>
    have whole := eq_of_splitAt? found
    unfold splitAt? at found
    split at found
    · obtain ⟨rfl, -⟩ : [] = before ∧ (c :: rest).drop pattern.length = after := by
        simpa using found
      exact isFirst_nil pattern
    · rename_i other
      obtain ⟨⟨front, behind⟩, searched, same⟩ := Option.map_eq_some_iff.mp found
      obtain ⟨rfl, rfl⟩ := Prod.mk.inj same
      have apart : ¬ pattern <+: c :: front ++ pattern ++ behind := by
        rw [← whole, ← List.isPrefixOf_iff_prefix]
        exact other
      exact (ih searched).cons apart

/-- A search returns exactly the parts around the first occurrence. -/
theorem splitAt?_eq_some_iff {pattern text before after : Text} :
    splitAt? pattern text = some (before, after) ↔
      text = before ++ pattern ++ after ∧ IsFirst pattern before := by
  constructor
  · intro found
    exact ⟨eq_of_splitAt? found, isFirst_of_splitAt? found⟩
  · rintro ⟨rfl, first⟩
    exact splitAt?_of_isFirst after first

/-- A search finds nothing exactly when the pattern stands nowhere in the text. -/
theorem splitAt?_eq_none_iff {pattern text : Text} :
    splitAt? pattern text = none ↔ ¬ pattern <:+: text := by
  constructor
  · intro missing inside
    induction text with
    | nil =>
      obtain rfl : pattern = [] := List.eq_nil_of_infix_nil inside
      exact absurd missing (by decide)
    | cons c rest ih =>
      unfold splitAt? at missing
      split at missing
      · contradiction
      · rename_i other
        rcases List.infix_cons_iff.mp inside with starts | later
        · exact other (List.isPrefixOf_iff_prefix.mpr starts)
        · exact ih (Option.map_eq_none_iff.mp missing) later
  · intro absent
    cases found : splitAt? pattern text with
    | none => rfl
    | some parts =>
      refine absurd ?_ absent
      exact ⟨parts.1, parts.2, (eq_of_splitAt? found).symm⟩

end LicenseHeader.Text
