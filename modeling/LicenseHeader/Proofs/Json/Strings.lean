import LicenseHeader.Json.Reader
import LicenseHeader.Json.Writer
import Mathlib.Tactic.SplitIfs

/-!
# Strings are read back

Every character is read from the way in which it stands in a string (`readCodes_escape`), and no
character is half of a surrogate pair, so that a string in quotes is read as what it holds
(`readString_quoted`).
-/

namespace LicenseHeader.JsonValue

/-- A backslash and a letter are read as the code that the letter stands for. -/
theorem readCodes_backslash {c : Char} {code : Nat} (letter : c ≠ 'u')
    (known : escaped? c = some code) (rest : Text) : readCodes ('\\' :: c :: rest) =
      (readCodes rest).map fun found => (code :: found.1, found.2) := by
  rw [readCodes.eq_4 _ _ (fun _ _ _ _ _ same => absurd same letter), known]
  cases readCodes rest <;> rfl

/-- A character below the blank is read from its number in four digits. -/
theorem readCodes_number {n : Nat} (control : n < 0x20) (rest : Text) :
    readCodes (['\\', 'u', '0', '0', Text.hexDigit (n / 16), Text.hexDigit (n % 16)] ++ rest) =
      (readCodes rest).map fun found => (n :: found.1, found.2) := by
  have high := Text.hexValue?_hexDigit (n := n / 16) (by omega)
  have low := Text.hexValue?_hexDigit (n := n % 16) (by omega)
  have number : Text.hexNumber? ['0', '0', Text.hexDigit (n / 16), Text.hexDigit (n % 16)] =
      some n := by
    have zero : Text.hexValue? '0' = some 0 := by decide
    simp only [Text.hexNumber?, List.mapM_cons, List.mapM_nil, zero, high, low, Option.pure_def,
      Option.bind_eq_bind, Option.bind_some, Option.map_some, List.foldl_cons, List.foldl_nil,
      Option.some.injEq]
    omega
  simp only [List.cons_append, List.nil_append, readCodes, number]
  cases readCodes rest <;> rfl

/-- A character as it stands in a string is read as its number. -/
theorem readCodes_escape (c : Char) (rest : Text) : readCodes (escape c ++ rest) =
    (readCodes rest).map fun found => (c.toNat :: found.1, found.2) := by
  unfold escape
  split_ifs with quote backslash backspace tab lineFeed formFeed carriageReturn control
  · subst quote
    exact readCodes_backslash (by decide) rfl rest
  · subst backslash
    exact readCodes_backslash (by decide) rfl rest
  · subst backspace
    exact readCodes_backslash (by decide) rfl rest
  · subst tab
    exact readCodes_backslash (by decide) rfl rest
  · subst lineFeed
    exact readCodes_backslash (by decide) rfl rest
  · subst formFeed
    exact readCodes_backslash (by decide) rfl rest
  · subst carriageReturn
    exact readCodes_backslash (by decide) rfl rest
  · exact readCodes_number control rest
  · rw [List.singleton_append, readCodes.eq_5 _ _ quote (fun _ _ _ _ _ same _ => backslash same)
      (fun _ _ same _ => backslash same), if_neg control]

/-- A text as it stands in a string is read as the numbers of its characters. -/
theorem readCodes_flatMap_escape (text rest : Text) :
    readCodes (text.flatMap escape ++ '"' :: rest) = some (text.map Char.toNat, rest) := by
  induction text with
  | nil => rfl
  | cons c more ih => rw [List.flatMap_cons, List.append_assoc, readCodes_escape, ih]; rfl

/-- No character has the number of half of a surrogate pair. -/
theorem not_surrogate (c : Char) {low high : Nat} (above : 0xD800 ≤ low) (below : high ≤ 0xE000) :
    ¬(low ≤ c.toNat && c.toNat < high) := by
  have apart : c.toNat < 0xD800 ∨ 0xE000 ≤ c.toNat := c.valid.imp id fun beyond => beyond.1
  rw [Bool.and_eq_true, decide_eq_true_eq, decide_eq_true_eq]
  omega

/-- The numbers of characters are read as the characters. -/
theorem ofCodes_toNat (text : Text) : ofCodes (text.map Char.toNat) = some text := by
  induction text with
  | nil => rfl
  | cons c rest ih =>
    have whole : ¬(0xD800 ≤ c.toNat && c.toNat < 0xE000) :=
      not_surrogate c (Nat.le_refl _) (Nat.le_refl _)
    have high : ¬(0xD800 ≤ c.toNat && c.toNat < 0xDC00) :=
      not_surrogate c (Nat.le_refl _) (by decide)
    have low : ¬(0xDC00 ≤ c.toNat && c.toNat < 0xE000) :=
      not_surrogate c (by decide) (Nat.le_refl _)
    cases rest with
    | nil => rw [List.map_singleton, ofCodes, if_neg whole, Char.ofNat_toNat]
    | cons d more =>
      rw [List.map_cons, List.map_cons, ofCodes, if_neg high, if_neg low, ← List.map_cons, ih,
        Option.map_some, Char.ofNat_toNat]

/-- A string in quotes is read as what it holds, be this a text or none. -/
theorem readString_quoted (content : JsonString) (rest : Text) :
    ∃ opened, quoted content ++ rest = '"' :: opened ∧
      readString opened = some (content, rest) := by
  cases content with
  | none =>
    have half : quoted none = ['"', '\\', 'u', 'd', '8', '0', '0', '"'] := by decide +kernel
    have code : Text.hexNumber? ['d', '8', '0', '0'] = some 0xD800 := by decide +kernel
    refine ⟨['\\', 'u', 'd', '8', '0', '0', '"'] ++ rest, by rw [half]; rfl, ?_⟩
    simp [readString, readCodes, code, ofCodes]
  | some text =>
    refine ⟨text.flatMap escape ++ '"' :: rest, ?_, ?_⟩
    · show '"' :: text.flatMap escape ++ ['"'] ++ rest = _
      rw [List.append_assoc]
      rfl
    · rw [readString, readCodes_flatMap_escape, Option.map_some, ofCodes_toNat]

end LicenseHeader.JsonValue
