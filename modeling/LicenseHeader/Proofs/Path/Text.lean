import LicenseHeader.Proofs.Path.Below
import LicenseHeader.Proofs.Text.Utf8

/-!
# Paths that are text

The byte of a slash writes a slash and is in no other character, so that the text of a path is
divided where its bytes are: a path is text exactly when its pieces are (`isText_joinPieces`), and
names with one slash between them have as many slashes as there are names but one
(`count_slash_joinPieces`).
-/

namespace LicenseHeader.Path

/-- Whether bytes are those of a text. -/
def IsText (bytes : Bytes) : Prop := ∃ text, Utf8.encode text = bytes

/-- Bytes are those of a text exactly when they can be read as one. -/
theorem isText_iff_isOk {bytes : Bytes} : IsText bytes ↔ (Utf8.decode bytes).isOk = true := by
  constructor
  · rintro ⟨text, written⟩
    rw [Utf8.decode_eq_ok_iff.mpr written]
    rfl
  · intro readable
    cases read : Utf8.decode bytes with
    | error fault =>
      rw [read] at readable
      contradiction
    | ok text => exact ⟨text, Utf8.decode_eq_ok_iff.mp read⟩

/-- A slash is written by its byte. -/
theorem encode_slash (text : Text) : Utf8.encode ('/' :: text) = slash :: Utf8.encode text := rfl

/-- The byte of a slash is in no other character. -/
theorem slash_not_mem_encodeChar {c : Char} (other : c ≠ '/') : slash ∉ Utf8.encodeChar c := by
  intro member
  rcases Utf8.encodeChar_cases c with ⟨single, ascii⟩ | ⟨-, wide⟩
  · rw [single] at member
    have number : 0x2F = c.toNat := by
      rw [← UInt8.toNat_ofNat_of_lt' (Nat.lt_trans ascii (by decide)),
        ← List.mem_singleton.mp member]
      rfl
    exact other (Char.toNat_inj.mp number.symm)
  · exact absurd (wide slash member) (by decide)

/-- The bytes of a text have as many slashes as the text. -/
theorem count_slash_encode (text : Text) : (Utf8.encode text).count slash = text.count '/' := by
  induction text with
  | nil => rfl
  | cons c more ih =>
    by_cases same : c = '/'
    · rw [same, encode_slash, List.count_cons_self, List.count_cons_self, ih]
    · rw [Utf8.encode_cons, List.count_append, ih, List.count_cons_of_ne same,
        List.count_eq_zero.mpr (slash_not_mem_encodeChar same), Nat.zero_add]

/-- A text of which the bytes have a slash is divided by a slash there. -/
theorem exists_of_encode_slash {text : Text} {before after : Bytes}
    (written : Utf8.encode text = before ++ slash :: after) :
    ∃ front back, text = front ++ '/' :: back ∧ Utf8.encode front = before ∧
      Utf8.encode back = after := by
  induction text generalizing before with
  | nil => simp [Utf8.encode] at written
  | cons c more ih =>
    by_cases same : c = '/'
    · rw [same, encode_slash] at written
      cases before with
      | nil => exact ⟨[], more, by rw [same]; rfl, rfl, (List.cons.inj written).2⟩
      | cons b rest =>
        obtain ⟨rfl, behind⟩ := List.cons.inj written
        obtain ⟨front, back, rfl, rfl, last⟩ := ih behind
        exact ⟨c :: front, back, rfl, by rw [same]; rfl, last⟩
    · -- The slash lies behind the bytes of the first character.
      have apart := slash_not_mem_encodeChar same
      rw [Utf8.encode_cons] at written
      rcases List.append_eq_append_iff.mp written with ⟨rest, rfl, behind⟩ | ⟨rest, whole, behind⟩
      · obtain ⟨front, back, rfl, rfl, last⟩ := ih behind
        exact ⟨c :: front, back, rfl, rfl, last⟩
      · cases rest with
        | nil =>
          obtain ⟨front, back, rfl, empty, last⟩ := @ih [] behind.symm
          rw [List.append_nil] at whole
          refine ⟨c :: front, back, rfl, ?_, last⟩
          rw [Utf8.encode_cons, empty, whole, List.append_nil]
        | cons b more =>
          obtain ⟨rfl, -⟩ := List.cons.inj behind
          exact absurd (whole ▸ List.mem_append_right before List.mem_cons_self) apart

/-- Bytes around a slash are text exactly when both parts are. -/
theorem isText_append_slash {before after : Bytes} :
    IsText (before ++ slash :: after) ↔ IsText before ∧ IsText after := by
  constructor
  · rintro ⟨text, written⟩
    obtain ⟨front, back, -, first, last⟩ := exists_of_encode_slash written
    exact ⟨⟨front, first⟩, ⟨back, last⟩⟩
  · rintro ⟨⟨front, rfl⟩, ⟨back, rfl⟩⟩
    exact ⟨front ++ '/' :: back, Utf8.encode_append front _⟩

/-- Joined pieces are text exactly when each of them is. -/
theorem isText_joinPieces (body : List Bytes) :
    IsText (joinPieces body) ↔ ∀ piece ∈ body, IsText piece := by
  induction body with
  | nil => exact iff_of_true ⟨[], rfl⟩ (by simp)
  | cons piece more ih =>
    by_cases alone : more = []
    · simp [alone, joinPieces]
    · rw [joinPieces_cons alone, isText_append_slash, ih, ← List.forall_mem_cons]

/-- Between pieces without slashes stand as many slashes as there are pieces but one. -/
theorem count_slash_joinPieces {body : List Bytes} (filled : body ≠ [])
    (whole : ∀ piece ∈ body, slash ∉ piece) :
    (joinPieces body).count slash + 1 = body.length := by
  induction body with
  | nil => contradiction
  | cons piece more ih =>
    obtain ⟨first, others⟩ := List.forall_mem_cons.mp whole
    have none := List.count_eq_zero.mpr first
    by_cases alone : more = []
    · rw [alone, joinPieces, none]
      rfl
    · rw [joinPieces_cons alone, List.count_append, none, List.count_cons_self, Nat.zero_add,
        ih alone others]
      rfl

end LicenseHeader.Path
