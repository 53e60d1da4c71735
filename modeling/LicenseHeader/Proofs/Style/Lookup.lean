import LicenseHeader.Candidate
import LicenseHeader.Proofs.Style.LowerCase
import LicenseHeader.Proofs.Text.Utf8

/-!
# The style that a name gives

No suffix of the rules ends another one, so at most one rule matches a name and the order of the
rules does not matter (`Style.find?_of_perm`). The rules look at the lower case of a name, in which
the case of letters in ASCII is lost, and at the last component of a path, when this is a name
(`Style.unambiguous`).
-/

namespace LicenseHeader.Style

/-- The style that rules give to a name in lower case: that of the first whose suffix ends it. -/
def styleBy (rules : List (String × Style)) (low : Text) : Option Style :=
  (rules.find? fun rule => rule.1.toList.isSuffixOf low).map (·.2)

section List

variable {α : Type} {p : α → Bool} {list order : List α}

/-- A list of which no two elements pass has at most one that does. -/
theorem length_filter_le_one (apart : list.Pairwise fun a b => ¬ (p a = true ∧ p b = true)) :
    (list.filter p).length ≤ 1 := by
  have kept := apart.filter p
  have passes : ∀ a ∈ list.filter p, p a = true := fun a member => (List.mem_filter.mp member).2
  match whole : list.filter p with
  | [] => exact Nat.zero_le 1
  | [_] => exact Nat.le_refl 1
  | a :: b :: more =>
    rw [whole] at kept passes
    exact absurd ⟨passes a (by simp), passes b (by simp)⟩
      ((List.pairwise_cons.mp kept).1 b (by simp))

/-- The first element that passes does not depend on the order when at most one does. -/
theorem find?_of_perm (few : (list.filter p).length ≤ 1) (same : order.Perm list) :
    order.find? p = list.find? p := by
  have filtered := same.filter p
  rw [← List.head?_filter, ← List.head?_filter]
  generalize list.filter p = found at few filtered
  match found with
  | [] => rw [filtered.eq_nil]
  | [a] => rw [List.perm_singleton.mp filtered]
  | _ :: _ :: _ => simp at few

end List

/-! ## The rules -/

variable {low name other : Text} {order : List (String × Style)} {style : Style}

/-- No suffix of the rules ends another one. -/
theorem suffixes_apart : suffixes.Pairwise fun rule other =>
    ¬ rule.1.toList <:+ other.1.toList ∧ ¬ other.1.toList <:+ rule.1.toList := by
  decide

/-- The suffixes of the rules are in ASCII. -/
theorem narrow_suffixes : ∀ rule ∈ suffixes, ∀ c ∈ rule.1.toList, IsNarrow c := by
  have narrow : (suffixes.all fun rule => rule.1.toList.all fun c => decide (IsNarrow c)) = true :=
    by decide
  intro rule listed c written
  exact of_decide_eq_true (List.all_eq_true.mp (List.all_eq_true.mp narrow rule listed) c written)

/-- At most one rule has a suffix that ends a text. -/
theorem length_filter_suffixes (low : Text) :
    (suffixes.filter fun rule => rule.1.toList.isSuffixOf low).length ≤ 1 := by
  apply length_filter_le_one
  refine suffixes_apart.imp fun ⟨first, second⟩ ⟨ends, also⟩ => ?_
  rw [List.isSuffixOf_iff_suffix] at ends also
  exact (List.suffix_or_suffix_of_suffix ends also).elim first second

/-- Whatever their order, the rules give a name in lower case the same style. -/
theorem styleBy_of_perm (same : order.Perm suffixes) (low : Text) :
    styleBy order low = styleBy suffixes low := by
  unfold styleBy
  rw [find?_of_perm (length_filter_suffixes low) same]

/-- A rule whose suffix ends a name in lower case gives it its style. -/
theorem styleBy_eq_some_iff : styleBy suffixes low = some style ↔
    ∃ rule ∈ suffixes, rule.1.toList <:+ low ∧ rule.2 = style := by
  unfold styleBy
  rw [Option.map_eq_some_iff]
  constructor
  · rintro ⟨rule, found, rfl⟩
    have ends := List.find?_some found
    exact ⟨rule, List.mem_of_find?_eq_some found, List.isSuffixOf_iff_suffix.mp ends, rfl⟩
  · rintro ⟨rule, member, ends, rfl⟩
    refine ⟨rule, ?_, rfl⟩
    have few := length_filter_suffixes low
    have kept : rule ∈ suffixes.filter fun rule => rule.1.toList.isSuffixOf low :=
      List.mem_filter.mpr ⟨member, List.isSuffixOf_iff_suffix.mpr ends⟩
    rw [← List.head?_filter]
    generalize List.filter _ suffixes = found at few kept
    match found with
    | [] => contradiction
    | [only] => rw [List.mem_singleton.mp kept, List.head?_cons]
    | _ :: _ :: _ => simp at few

/-- All lower cases of a name have the same style. -/
theorem styleBy_of_lowers (lowers : Lowers name low) :
    styleBy suffixes low = ofFileName? name := by
  have own := lowers_lower name
  have same : ∀ rule ∈ suffixes,
      rule.1.toList.isSuffixOf low = rule.1.toList.isSuffixOf (lower name) := by
    intro rule member
    have narrow := narrow_suffixes rule member
    rw [Bool.eq_iff_iff, List.isSuffixOf_iff_suffix, List.isSuffixOf_iff_suffix]
    exact ⟨suffix_of_lowers narrow lowers own, suffix_of_lowers narrow own lowers⟩
  unfold styleBy ofFileName?
  rw [← List.head?_filter, ← List.head?_filter, List.filter_congr same]

/-- The case of letters in ASCII does not matter for the lower case of a name. -/
theorem lower_map_toLower (name : Text) : lower (name.map Char.toLower) = lower name := by
  unfold lower
  rw [List.flatMap_map]
  exact congrArg (name.flatMap ·) (funext lowerChar_toLower)

/-! ## The last component of a path -/

/-- A path whose last component is a name in UTF-8 has the style of this name. -/
theorem ofPath?_of_last {path : Path} {bytes : Bytes}
    (last : path.components.getLast? = some (.entry bytes)) (text : Utf8.decode bytes = .ok name) :
    ofPath? path = ofFileName? name := by
  unfold ofPath? Path.fileName?
  rw [last]
  simp [text, Except.toOption]

/-- A path whose last component is no name in UTF-8 has no style. -/
theorem ofPath?_of_other {path : Path}
    (other : ∀ bytes name, path.components.getLast? = some (.entry bytes) →
      Utf8.decode bytes ≠ .ok name) : ofPath? path = none := by
  unfold ofPath? Path.fileName?
  split
  next found bytes last =>
    cases text : Utf8.decode bytes with
    | ok name => exact absurd text (other bytes name last)
    | error fault => simp [text, Except.toOption]
  next => rfl

/-- At most one rule matches a name in lower case, so that no rule hides another one and their order
does not matter; nor does the case of letters in ASCII. This holds of every lower case of the name.
The style of a path is that of its last component when this is a name in UTF-8, whatever the other
components are, and else there is none. -/
theorem unambiguous :
    (∀ low : Text, (suffixes.filter fun rule => rule.1.toList.isSuffixOf low).length ≤ 1) ∧
      (∀ (name low : Text) (order : List (String × Style)), Lowers name low →
        order.Perm suffixes → styleBy order low = ofFileName? name) ∧
      (∀ (name low : Text) (style : Style), Lowers name low →
        (ofFileName? name = some style ↔
          ∃ rule ∈ suffixes, rule.1.toList <:+ low ∧ rule.2 = style)) ∧
      (∀ name other : Text, name.map Char.toLower = other.map Char.toLower →
        ofFileName? name = ofFileName? other) ∧
      (∀ (path : Path) (bytes : Bytes) (name : Text),
        path.components.getLast? = some (.entry bytes) → Utf8.decode bytes = .ok name →
          ofPath? path = ofFileName? name) ∧
      ∀ path : Path, (∀ bytes name, path.components.getLast? = some (.entry bytes) →
        Utf8.decode bytes ≠ .ok name) → ofPath? path = none := by
  refine ⟨length_filter_suffixes, ?_, ?_, ?_, fun _ _ _ => ofPath?_of_last,
    fun _ => ofPath?_of_other⟩
  · intro name low order lowers same
    rw [styleBy_of_perm same, styleBy_of_lowers lowers]
  · intro name low style lowers
    rw [← styleBy_of_lowers lowers, styleBy_eq_some_iff]
  · intro name other same
    rw [← styleBy_of_lowers (lowers_lower name), ← styleBy_of_lowers (lowers_lower other),
      ← lower_map_toLower name, same, lower_map_toLower]

/-- A name of which a letter has a lower case of its own at the end of a word, looked up in the
rules in reverse order, and a path to it that goes through a directory with a style of its own. -/
theorem unambiguous_sigma :
    Lowers "ΟΔΟΣ.PY".toList "οδος.py".toList ∧ suffixes.reverse.Perm suffixes ∧
      styleBy suffixes.reverse "οδος.py".toList = some .sharp ∧
      ofPath? (.ofString "a.rs/../ΟΔΟΣ.PY") = some .sharp := by
  have greek (c d : Char) (far : ¬ IsNarrow c ∧ c ≠ '\u212A' ∧ c ≠ '\u0130' ∧ ¬ IsNarrow d) :
      LowersChar c [d] :=
    .wide far.1 far.2.1 far.2.2.1 (List.cons_ne_nil d []) (by simpa using far.2.2.2)
  have lowers : Lowers "ΟΔΟΣ.PY".toList "οδος.py".toList :=
    .cons (greek 'Ο' 'ο' (by decide)) (.cons (greek 'Δ' 'δ' (by decide))
      (.cons (greek 'Ο' 'ο' (by decide)) (.cons (greek 'Σ' 'ς' (by decide))
        (.cons (.narrow (by decide)) (.cons (.narrow (by decide)) (.cons (.narrow (by decide))
          .nil))))))
  have same : suffixes.reverse.Perm suffixes := List.reverse_perm suffixes
  have own : styleBy suffixes "οδος.py".toList = some .sharp := by decide
  have last : (Path.ofString "a.rs/../ΟΔΟΣ.PY").components.getLast? =
      some (.entry (Utf8.encode "ΟΔΟΣ.PY".toList)) := by
    decide +kernel
  have text : Utf8.decode (Utf8.encode "ΟΔΟΣ.PY".toList) = .ok "ΟΔΟΣ.PY".toList :=
    Utf8.decode_eq_ok_iff.mpr rfl
  obtain ⟨-, reordered, -, -, named, -⟩ := unambiguous
  have direct := reordered _ _ suffixes lowers (List.Perm.refl _)
  refine ⟨lowers, same, ?_, ?_⟩
  · rw [reordered _ _ _ lowers same, ← direct, own]
  · rw [named _ _ _ last text, ← direct, own]

/-- The last name on a path that climbs behind it gives the path no style. -/
theorem ofPath?_climbing :
    (Path.ofString "a.rs/..").components = [.entry (Utf8.encode "a.rs".toList), .up] ∧
      ofFileName? "a.rs".toList = some .block ∧ ofPath? (.ofString "a.rs/..") = none := by
  decide +kernel

end LicenseHeader.Style
