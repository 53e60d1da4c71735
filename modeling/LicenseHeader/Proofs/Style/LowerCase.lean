import LicenseHeader.Style

/-!
# Lower case, as far as suffixes can tell

What lower case is depends on a table of all characters, and for some of them on what stands around
them. Suffixes in ASCII do not see this: outside ASCII only the Kelvin sign and the capital I with a
dot have lower cases with ASCII letters in them. `Style.Lowers` says no more than this of a text,
and `Style.suffix_of_lowers` that all lower cases of a name end with the same suffixes in ASCII.
-/

namespace LicenseHeader.Style

/-- Whether a character is in ASCII. -/
def IsNarrow (c : Char) : Prop := c.toNat < 0x80

instance (c : Char) : Decidable (IsNarrow c) := inferInstanceAs (Decidable (c.toNat < 0x80))

/-- Whether a text can be the lower case of a character, wherever it stands. -/
inductive LowersChar : Char → Text → Prop where
  /-- In ASCII a capital letter has a small one, and all else is its own lower case. -/
  | narrow {c : Char} (narrow : IsNarrow c) : LowersChar c [c.toLower]
  /-- The lower case of the Kelvin sign is a letter in ASCII. -/
  | kelvin : LowersChar '\u212A' ['k']
  /-- The lower case of the capital I with a dot has a letter in ASCII and its dot. -/
  | dotted : LowersChar '\u0130' ['i', '\u0307']
  /-- Every other character beyond ASCII has a lower case beyond ASCII. -/
  | wide {c : Char} {low : Text} (beyond : ¬ IsNarrow c) (noKelvin : c ≠ '\u212A')
      (noDot : c ≠ '\u0130') (filled : low ≠ []) (clear : ∀ d ∈ low, ¬ IsNarrow d) :
      LowersChar c low

/-- Whether a text can be the lower case of a name. -/
inductive Lowers : Text → Text → Prop where
  /-- No name. -/
  | nil : Lowers [] []
  /-- A character and the rest of the name. -/
  | cons {c : Char} {part name low : Text} (first : LowersChar c part) (rest : Lowers name low) :
      Lowers (c :: name) (part ++ low)

variable {c : Char} {name part other low wide : Text}

/-- A character beyond ASCII has no small letter in ASCII. -/
theorem toLower_of_wide (beyond : ¬ IsNarrow c) : c.toLower = c := by
  have far : 0x80 ≤ c.toNat := Nat.not_lt.mp beyond
  unfold Char.toLower
  rw [dif_neg]
  rintro ⟨-, below⟩
  have outside : 'Z'.toNat < c.toNat := Nat.lt_of_lt_of_le (by decide) far
  exact absurd (UInt32.le_iff_toNat_le.mp below) (Nat.not_le.mpr outside)

/-- The case of a letter in ASCII does not matter for its lower case. -/
theorem lowerChar_toLower (c : Char) : lowerChar c.toLower = lowerChar c := by
  by_cases narrow : IsNarrow c
  · have all : ∀ n < 0x80, lowerChar (Char.ofNat n).toLower = lowerChar (Char.ofNat n) := by decide
    have found := all c.toNat narrow
    rwa [Char.ofNat_toNat] at found
  · rw [toLower_of_wide narrow]

/-- The lower case of a character is one. -/
theorem lowersChar_lowerChar (c : Char) : LowersChar c (lowerChar c) := by
  unfold lowerChar
  split
  next kelvin => exact kelvin ▸ .kelvin
  next noKelvin =>
    split
    next dotted => exact dotted ▸ .dotted
    next noDot =>
      by_cases narrow : IsNarrow c
      · exact .narrow narrow
      · rw [toLower_of_wide narrow]
        exact .wide narrow noKelvin noDot (List.cons_ne_nil c []) (by simpa using narrow)

/-- The lower case of a name is one. -/
theorem lowers_lower (name : Text) : Lowers name (lower name) := by
  induction name with
  | nil => exact .nil
  | cons c rest ih => exact .cons (lowersChar_lowerChar c) ih

/-- Two lower cases of a character are the same or both beyond ASCII. -/
theorem LowersChar.eq_or_wide (first : LowersChar c part) (second : LowersChar c other) :
    other = part ∨ ∀ d ∈ part, ¬ IsNarrow d := by
  cases first with
  | narrow narrow =>
    cases second with
    | narrow => exact .inl rfl
    | kelvin => exact absurd narrow (by decide)
    | dotted => exact absurd narrow (by decide)
    | wide beyond => exact absurd narrow beyond
  | kelvin =>
    cases second with
    | narrow narrow => exact absurd narrow (by decide)
    | kelvin => exact .inl rfl
    | wide _ noKelvin => exact absurd rfl noKelvin
  | dotted =>
    cases second with
    | narrow narrow => exact absurd narrow (by decide)
    | dotted => exact .inl rfl
    | wide _ _ noDot => exact absurd rfl noDot
  | wide _ _ _ _ clear => exact .inr clear

/-- A character has a lower case. -/
theorem LowersChar.ne_nil (lowers : LowersChar c part) : part ≠ [] := by
  cases lowers with
  | wide _ _ _ filled => exact filled
  | _ => simp

/-- A name with a lower case in ASCII has no other one. -/
theorem Lowers.eq_of_narrow (first : Lowers name low) (second : Lowers name wide)
    (narrow : ∀ d ∈ low, IsNarrow d) : wide = low := by
  induction first generalizing wide with
  | nil =>
    cases second
    rfl
  | cons head rest ih =>
    cases second with
    | cons other behind =>
      obtain ⟨near, far⟩ := List.forall_mem_append.mp narrow
      have same := ih behind far
      obtain equal | clear := head.eq_or_wide other
      · rw [same, equal]
      · obtain ⟨d, member⟩ := List.exists_mem_of_ne_nil _ head.ne_nil
        exact absurd (near d member) (clear d member)

/-- All lower cases of a name end with the same suffixes in ASCII. -/
theorem suffix_of_lowers {suffix : Text} (narrow : ∀ d ∈ suffix, IsNarrow d)
    (first : Lowers name low) (second : Lowers name wide) (ends : suffix <:+ low) :
    suffix <:+ wide := by
  induction first generalizing wide with
  | nil =>
    cases second
    exact ends
  | @cons c part name low head rest ih =>
    cases second with
    | @cons _ otherPart _ wide other behind =>
      obtain short | ⟨front, whole⟩ :=
        List.suffix_or_suffix_of_suffix ends (List.suffix_append part low)
      · exact (ih behind short).trans (List.suffix_append ..)
      · -- The suffix reaches into the lower case of the first character.
        subst whole
        obtain ⟨near, far⟩ := List.forall_mem_append.mp narrow
        rw [rest.eq_of_narrow behind far]
        obtain equal | clear := head.eq_or_wide other
        · rwa [equal]
        · cases front with
          | nil => exact List.suffix_append ..
          | cons d front =>
            obtain ⟨before, cut⟩ := ends
            rw [← List.append_assoc] at cut
            have inside : d ∈ part := by
              rw [← List.append_cancel_right cut]
              simp
            exact absurd (near d List.mem_cons_self) (clear d inside)

end LicenseHeader.Style
