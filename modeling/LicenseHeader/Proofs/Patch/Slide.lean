import LicenseHeader.Proofs.Patch.Walk

/-!
# Sliding keeps a script valid

Everything that the tidying of a script does to two adjacent edits leads between the same points as
before: a deletion and an insertion change places (`Leads.swap`), edits of one kind are joined
(`Leads.join`), and an insertion moves past lines that equal those it gives up (`Leads.raise`,
`Leads.lower`). Slides, passes and the tidy script inherit this (`leads_compact`), so the script
between two texts leads through all their lines (`leads_script`).

A deletion takes no lines from the new text. It therefore has nothing in common with kept lines and
never moves past them; only insertions slide.
-/

namespace LicenseHeader.Patch

variable {sides : Sides} {p q : Point}

/-! ## Two adjacent edits -/

/-- A deletion and an insertion change places. Both keep the position that they carry, which from
here on may be wrong in the text that they take no lines from. -/
theorem Leads.swap {a b : Edit} (aChange : a.kind ≠ .keep) (bChange : b.kind ≠ .keep)
    (apart : a.kind ≠ b.kind) (leads : Leads sides p [a, b] q) : Leads sides p [b, a] q := by
  obtain ⟨aKind, aOld, aNew, m⟩ := a
  obtain ⟨bKind, bOld, bNew, n⟩ := b
  cases aKind with
  | keep => exact absurd rfl aChange
  | delete =>
    cases bKind with
    | keep => exact absurd rfl bChange
    | delete => exact absurd rfl apart
    | insert =>
      obtain ⟨first, second, rfl⟩ := leads
      obtain ⟨some, place, within, -⟩ := fits_delete.mp first
      obtain ⟨more, other, -, bound⟩ := fits_insert.mp second
      refine ⟨fits_insert.mpr ⟨more, other, Nat.le_of_add_right_le within, bound⟩,
        fits_delete.mpr ⟨some, place, within, bound⟩, ?_⟩
      simp
  | insert =>
    cases bKind with
    | keep => exact absurd rfl bChange
    | insert => exact absurd rfl apart
    | delete =>
      obtain ⟨first, second, rfl⟩ := leads
      obtain ⟨some, place, -, within⟩ := fits_insert.mp first
      obtain ⟨more, other, bound, -⟩ := fits_delete.mp second
      refine ⟨fits_delete.mpr ⟨more, other, bound, Nat.le_of_add_right_le within⟩,
        fits_insert.mpr ⟨some, place, bound, within⟩, ?_⟩
      simp

/-- Two edits of one kind are one edit. -/
theorem Leads.join {a b : Edit} (same : a.kind = b.kind) (leads : Leads sides p [a, b] q) :
    Leads sides p [a.extend b.length] q := by
  obtain ⟨aKind, aOld, aNew, m⟩ := a
  obtain ⟨bKind, bOld, bNew, n⟩ := b
  obtain rfl : aKind = bKind := same
  obtain ⟨first, second, rfl⟩ := leads
  change Leads sides p [⟨aKind, aOld, aNew, m + n⟩] _
  cases aKind with
  | keep =>
    obtain ⟨some, oldPlace, newPlace, -, -, agree⟩ := fits_keep.mp first
    obtain ⟨-, -, -, oldWithin, newWithin, onward⟩ := fits_keep.mp second
    simp only [stop_keep, Point.ahead_old, Point.ahead_new] at oldWithin newWithin
    refine ⟨fits_keep.mpr ⟨Nat.add_pos_left some _, oldPlace, newPlace, ?_, ?_,
      agree_add.mpr ⟨agree, onward⟩⟩, ?_⟩
    · omega
    · omega
    · simp
  | delete =>
    obtain ⟨some, place, -, other⟩ := fits_delete.mp first
    obtain ⟨-, -, within, -⟩ := fits_delete.mp second
    simp only [stop_delete, Point.ahead_old] at within
    refine ⟨fits_delete.mpr ⟨Nat.add_pos_left some _, place, ?_, other⟩, ?_⟩
    · omega
    · simp
  | insert =>
    obtain ⟨some, place, other, -⟩ := fits_insert.mp first
    obtain ⟨-, -, -, within⟩ := fits_insert.mp second
    simp only [stop_insert, Point.ahead_new] at within
    refine ⟨fits_insert.mpr ⟨Nat.add_pos_left some _, place, other, ?_⟩, ?_⟩
    · omega
    · simp

/-- Kept lines take in the kept lines in front of them. -/
theorem Leads.joinUp {a b : Edit} (aKept : a.kind = .keep) (bKept : b.kind = .keep)
    (leads : Leads sides p [a, b] q) : Leads sides p [b.extendUp a.length] q := by
  have joined := leads.join (aKept.trans bKept.symm)
  obtain ⟨aKind, aOld, aNew, m⟩ := a
  obtain ⟨bKind, bOld, bNew, n⟩ := b
  obtain rfl : aKind = .keep := aKept
  obtain rfl : bKind = .keep := bKept
  obtain ⟨first, second, -⟩ := leads
  obtain ⟨-, rfl, rfl, -⟩ := fits_keep.mp first
  obtain ⟨-, rfl, rfl, -⟩ := fits_keep.mp second
  simpa [Edit.extend, Edit.extendUp, Edit.moveUp, Nat.add_comm n m] using joined

/-- An edit with lines in common with another one is no deletion. -/
theorem kind_of_common {kept this : Edit} {common : List Text → List Text → Nat}
    (within : ∀ a b, common a b ≤ b.length) (change : this.kind ≠ .keep)
    (some : common (sides.oldLines kept) (sides.newLines this) ≠ 0) : this.kind = .insert := by
  obtain ⟨kind, old, new, length⟩ := this
  cases kind with
  | keep => exact absurd rfl change
  | delete => exact absurd (Nat.le_zero.mp (within _ _)) some
  | insert => rfl

/-- What both lists have in common at their end is no longer than the second. -/
theorem commonEnd_le_right (a b : List Text) : commonEnd a b ≤ b.length := by
  simpa [commonEnd] using commonStart_le_right a.reverse b.reverse

/-- What both lists have in common at their end is no longer than the first. -/
theorem commonEnd_le_left (a b : List Text) : commonEnd a b ≤ a.length := by
  simpa [commonEnd] using commonStart_le_left a.reverse b.reverse

/-- The last lines that two ranges have in common. -/
theorem commonEnd_linesAt {a b : Array Text} {s t m n count : Nat} (aWithin : s + m ≤ a.size)
    (bWithin : t + n ≤ b.size) (common : count = commonEnd (linesAt a s m) (linesAt b t n)) :
    count ≤ m ∧ count ≤ n ∧
      linesAt a (s + (m - count)) count = linesAt b (t + (n - count)) count := by
  have left := commonEnd_le_left (linesAt a s m) (linesAt b t n)
  have right := commonEnd_le_right (linesAt a s m) (linesAt b t n)
  have last := drop_commonEnd (linesAt a s m) (linesAt b t n)
  rw [← common, length_linesAt aWithin] at left
  rw [← common, length_linesAt bWithin] at right
  rw [← common, length_linesAt aWithin, length_linesAt bWithin, drop_linesAt, drop_linesAt,
    Nat.sub_sub_self left, Nat.sub_sub_self right] at last
  exact ⟨left, right, last⟩

/-- The first lines that two ranges have in common. -/
theorem commonStart_linesAt {a b : Array Text} {s t m n count : Nat} (aWithin : s + m ≤ a.size)
    (bWithin : t + n ≤ b.size) (common : count = commonStart (linesAt a s m) (linesAt b t n)) :
    count ≤ m ∧ count ≤ n ∧ linesAt a s count = linesAt b t count := by
  have left := commonStart_le_left (linesAt a s m) (linesAt b t n)
  have right := commonStart_le_right (linesAt a s m) (linesAt b t n)
  have first := take_commonStart (linesAt a s m) (linesAt b t n)
  rw [← common, length_linesAt aWithin] at left
  rw [← common, length_linesAt bWithin] at right
  rw [← common, take_linesAt _ _ left, take_linesAt _ _ right] at first
  exact ⟨left, right, first⟩

/-- An insertion moves up past kept lines that equal its last ones. -/
theorem Leads.raise {kept this : Edit} {count : Nat} (isKept : kept.kind = .keep)
    (change : this.kind ≠ .keep)
    (common : count = commonEnd (sides.oldLines kept) (sides.newLines this)) (some : count ≠ 0)
    (leads : Leads sides p [kept, this] q) :
    Leads sides p (unlessEmpty (kept.shorten count) ++ [this.moveUp count,
      ⟨.keep, kept.old + kept.length - count, this.new + this.length - count, count⟩]) q := by
  have inserts := kind_of_common commonEnd_le_right change (common ▸ some)
  obtain ⟨keptKind, keptOld, keptNew, m⟩ := kept
  obtain ⟨thisKind, thisOld, thisNew, n⟩ := this
  obtain rfl : keptKind = .keep := isKept
  obtain rfl : thisKind = .insert := inserts
  obtain ⟨first, second, rfl⟩ := leads
  obtain ⟨-, rfl, rfl, oldWithin, newWithin, agree⟩ := fits_keep.mp first
  obtain ⟨filled, rfl, -, within⟩ := fits_insert.mp second
  obtain ⟨left, right, last⟩ := commonEnd_linesAt oldWithin within common
  obtain ⟨rest, rfl⟩ := Nat.exists_eq_add_of_le' left
  simp only [stop_keep, Point.ahead_new] at within last
  obtain ⟨shared, -⟩ := agree_add.mp agree
  have start : Leads sides p (unlessEmpty ⟨.keep, p.old, p.new, rest⟩) (p.ahead rest rest) :=
    leads_unlessEmpty fun some => fits_keep.mpr
      ⟨some, rfl, rfl, by omega, by omega, shared⟩
  have moved : (Block.ofEdit ⟨.insert, thisOld - count, p.new + rest, n⟩).Fits sides
      (p.ahead rest rest) := by
    refine fits_insert.mpr ⟨filled, rfl, ?_, ?_⟩
    · rw [Point.ahead_old]
      omega
    · rw [Point.ahead_new]
      omega
  have behind : (Block.ofEdit ⟨.keep, p.old + rest, p.new + rest + n, count⟩).Fits sides
      ((p.ahead rest rest).ahead 0 n) := by
    refine fits_keep.mpr ⟨Nat.pos_of_ne_zero some, rfl, rfl, ?_, ?_, ?_⟩
    · simp only [Point.ahead_old]
      omega
    · simp only [Point.ahead_new]
      omega
    · rw [show p.old + (rest + count - count) = p.old + rest by omega,
        show p.new + (rest + count) + (n - count) = p.new + rest + n by omega] at last
      exact last
  have shortened : (⟨.keep, p.old, p.new, rest + count⟩ : Edit).shorten count =
      ⟨.keep, p.old, p.new, rest⟩ := by simp [Edit.shorten]
  have up : (⟨.insert, thisOld, p.new + (rest + count), n⟩ : Edit).moveUp count =
      ⟨.insert, thisOld - count, p.new + rest, n⟩ := by
    simp [Edit.moveUp, ← Nat.add_assoc]
  have place : (⟨.keep, p.old + (rest + count) - count, p.new + (rest + count) + n - count, count⟩ :
      Edit) = ⟨.keep, p.old + rest, p.new + rest + n, count⟩ := by
    simp only [Edit.mk.injEq, true_and, and_true]
    omega
  have stop : ((p.ahead rest rest).ahead 0 n).ahead count count =
      (p.ahead (rest + count) (rest + count)).ahead 0 n := by
    simp only [Point.ahead_ahead]
    congr 1
    omega
  simp only [stop_keep, stop_insert, Point.ahead_new]
  rw [shortened, up, place, ← stop]
  exact start.append ⟨moved, behind, rfl⟩

/-- An insertion moves down past kept lines that equal its first ones. -/
theorem Leads.lower {kept this : Edit} {count : Nat} (isKept : kept.kind = .keep)
    (change : this.kind ≠ .keep)
    (common : count = commonStart (sides.oldLines kept) (sides.newLines this)) (some : count ≠ 0)
    (leads : Leads sides p [this, kept] q) :
    Leads sides p ([⟨.keep, kept.old, this.new, count⟩, this.moveDown count] ++
      unlessEmpty (kept.shortenUp count)) q := by
  have inserts := kind_of_common commonStart_le_right change (common ▸ some)
  obtain ⟨keptKind, keptOld, keptNew, m⟩ := kept
  obtain ⟨thisKind, thisOld, thisNew, n⟩ := this
  obtain rfl : keptKind = .keep := isKept
  obtain rfl : thisKind = .insert := inserts
  obtain ⟨first, second, rfl⟩ := leads
  obtain ⟨filled, rfl, -, within⟩ := fits_insert.mp first
  obtain ⟨-, rfl, rfl, oldWithin, newWithin, agree⟩ := fits_keep.mp second
  obtain ⟨left, right, shared⟩ := commonStart_linesAt oldWithin within common
  obtain ⟨rest, rfl⟩ := Nat.exists_eq_add_of_le left
  obtain ⟨-, last⟩ := agree_add.mp agree
  simp only [stop_insert, Point.ahead_old, Point.ahead_new, Point.ahead_ahead, Nat.add_zero,
    Nat.zero_add] at oldWithin newWithin shared last ⊢
  have ahead : (Block.ofEdit ⟨.keep, p.old, p.new, count⟩).Fits sides p :=
    fits_keep.mpr ⟨Nat.pos_of_ne_zero some, rfl, rfl, by omega, by omega, shared⟩
  have moved : (Block.ofEdit ⟨.insert, thisOld + count, p.new + count, n⟩).Fits sides
      (p.ahead count count) := by
    refine fits_insert.mpr ⟨filled, rfl, ?_, ?_⟩
    · rw [Point.ahead_old]
      omega
    · rw [Point.ahead_new]
      omega
  have finish : Leads sides ((p.ahead count count).ahead 0 n)
      (unlessEmpty ⟨.keep, p.old + count, p.new + n + count, rest⟩)
      (((p.ahead count count).ahead 0 n).ahead rest rest) := by
    refine leads_unlessEmpty fun some => fits_keep.mpr
      ⟨some, rfl, Nat.add_right_comm .., ?_, ?_, ?_⟩
    · simp only [Point.ahead_old]
      omega
    · simp only [Point.ahead_new]
      omega
    · simpa only [Point.ahead_ahead, Nat.add_zero, Nat.add_comm count n] using last
  have shortened : (⟨.keep, p.old, p.new + n, count + rest⟩ : Edit).shortenUp count =
      ⟨.keep, p.old + count, p.new + n + count, rest⟩ := by
    simp [Edit.shortenUp, Edit.moveDown, Edit.shorten]
  have stop : ((p.ahead count count).ahead 0 n).ahead rest rest =
      (p.ahead 0 n).ahead (count + rest) (count + rest) := by
    simp only [Point.ahead_ahead]
    congr 1
    · omega
    · omega
  simp only [stop_keep]
  rw [shortened, ← stop]
  exact ⟨ahead, moved, finish⟩

/-! ## Slides -/

/-- The edits of a place in order. -/
def Place.script (place : Place) : List Edit :=
  place.before.reverse ++ place.this :: place.after

/-- Kept lines in front of edits may be joined with them. -/
theorem leads_keepAfter {kept : Edit} {before after : List Edit} (isKept : kept.kind = .keep)
    (leads : Leads sides p (before ++ kept :: after) q) :
    Leads sides p (before ++ keepAfter kept after) q := by
  cases after with
  | nil => exact leads
  | cons next more =>
    simp only [keepAfter]
    split
    next keeps => exact leads.replace [kept, next] (Leads.joinUp isKept keeps)
    next => exact leads

/-- Kept lines behind edits may be joined with them. -/
theorem leads_keepBefore {kept : Edit} {before after : List Edit} (isKept : kept.kind = .keep)
    (leads : Leads sides p (before.reverse ++ kept :: after) q) :
    Leads sides p ((keepBefore kept before).reverse ++ after) q := by
  cases before with
  | nil => exact leads
  | cons previous more =>
    simp only [keepBefore]
    split
    next keeps =>
      simp only [List.reverse_cons, List.append_assoc] at leads ⊢
      exact leads.replace [previous, kept] (Leads.join (keeps.trans isKept.symm))
    next => simpa using leads

/-- Every edit of a script that leads anywhere has lines. -/
theorem Leads.filled {script : List Edit} {edit : Edit} (leads : Leads sides p script q)
    (member : edit ∈ script) : edit.length ≠ 0 := by
  induction script generalizing p with
  | nil => contradiction
  | cons first more ih =>
    obtain ⟨fits, onward⟩ := leads_cons.mp leads
    obtain rfl | other := List.mem_cons.mp member
    · intro none
      obtain ⟨kind, old, new, length⟩ := edit
      obtain rfl : length = 0 := none
      have filled := fits.filled
      cases kind <;> exact absurd filled (Nat.lt_irrefl 0)
    · exact ih onward other

/-- The edit before a place and the edit under way may be replaced together. -/
theorem Leads.replaceBefore {previous this : Edit} {before after other : List Edit}
    (replaces : ∀ {s e}, Leads sides s [previous, this] e → Leads sides s other e)
    (leads : Leads sides p ((previous :: before).reverse ++ this :: after) q) :
    Leads sides p (before.reverse ++ (other ++ after)) q := by
  rw [List.reverse_cons, List.append_assoc] at leads
  exact leads.replace [previous, this] replaces

/-- An insertion in the middle of a script moves up past kept lines. -/
theorem Leads.raiseAt {previous this : Edit} {before after : List Edit} {count : Nat}
    (keeps : previous.kind = .keep) (change : this.kind ≠ .keep)
    (common : count = commonEnd (sides.oldLines previous) (sides.newLines this)) (some : count ≠ 0)
    (leads : Leads sides p ((previous :: before).reverse ++ this :: after) q) :
    Leads sides p
      ((before.reverse ++ unlessEmpty (previous.shorten count) ++ [this.moveUp count]) ++
        keepAfter ⟨.keep, previous.old + previous.length - count, this.new + this.length - count,
          count⟩ after) q := by
  have raised := leads.replaceBefore (Leads.raise keeps change common some)
  exact leads_keepAfter rfl (by simpa using raised)

/-- An insertion in the middle of a script moves down past kept lines. -/
theorem Leads.lowerAt {this next : Edit} {before after : List Edit} {count : Nat}
    (keeps : next.kind = .keep) (change : this.kind ≠ .keep)
    (common : count = commonStart (sides.oldLines next) (sides.newLines this)) (some : count ≠ 0)
    (leads : Leads sides p (before.reverse ++ this :: next :: after) q) :
    Leads sides p ((keepBefore ⟨.keep, next.old, this.new, count⟩ before).reverse ++
      this.moveDown count :: (unlessEmpty (next.shortenUp count) ++ after)) q := by
  have lowered := leads.replace [this, next] (Leads.lower keeps change common some)
  exact leads_keepBefore rfl (by simpa using lowered)

/-- Moving up keeps a script valid. -/
theorem leads_slideUp {this : Edit} {before after : List Edit} (change : this.kind ≠ .keep)
    (leads : Leads sides p (before.reverse ++ this :: after) q) :
    Leads sides p (slideUp sides this before after).script q := by
  fun_induction slideUp sides this before after with
  | case1 => exact leads
  | case2 this previous before after keeps none ih =>
    exact absurd none (leads.filled (by simp))
  | case3 => exact leads
  | case4 this previous before after keeps count filled some kept moved fewer ih =>
    have raised := leads.raiseAt keeps change rfl some
    have rest : (previous.shorten count).length ≠ 0 := Nat.sub_ne_zero_of_lt fewer
    rw [unlessEmpty, if_neg rest] at raised
    exact ih change (by simpa using raised)
  | case5 this previous before after keeps count filled some kept moved all ih =>
    have raised := leads.raiseAt keeps change rfl some
    have rest : (previous.shorten count).length = 0 :=
      Nat.sub_eq_zero_of_le (Nat.le_of_not_lt all)
    rw [unlessEmpty, if_pos rest] at raised
    exact ih change (by simpa using raised)
  | case6 this previous before after changes same ih =>
    exact ih changes (leads.replaceBefore (Leads.join same))
  | case7 this previous before after changes apart ih =>
    exact ih change (leads.replaceBefore (Leads.swap changes change apart))

/-- Moving up does not change what the edit does. -/
theorem kind_slideUp (this : Edit) (before after : List Edit) :
    (slideUp sides this before after).this.kind = this.kind := by
  fun_induction slideUp sides this before after with
  | case6 this previous before after changes same ih => exact ih.trans same
  | _ => first | rfl | assumption

/-- Moving down keeps a script valid. -/
theorem leads_slideDown {this : Edit} {before after : List Edit} (change : this.kind ≠ .keep)
    (leads : Leads sides p (before.reverse ++ this :: after) q) :
    Leads sides p (slideDown sides this before after).script q := by
  fun_induction slideDown sides this before after with
  | case1 => exact leads
  | case2 this before next after keeps none ih =>
    exact absurd none (leads.filled (by simp))
  | case3 => exact leads
  | case4 this before next after keeps count filled some kept moved fewer ih =>
    have lowered := leads.lowerAt keeps change rfl some
    have rest : (next.shortenUp count).length ≠ 0 := Nat.sub_ne_zero_of_lt fewer
    rw [unlessEmpty, if_neg rest] at lowered
    exact ih change lowered
  | case5 this before next after keeps count filled some kept moved all ih =>
    have lowered := leads.lowerAt keeps change rfl some
    have rest : (next.shortenUp count).length = 0 :=
      Nat.sub_eq_zero_of_le (Nat.le_of_not_lt all)
    rw [unlessEmpty, if_pos rest] at lowered
    exact ih change lowered
  | case6 this before next after changes same ih =>
    exact ih change (leads.replace [this, next] (Leads.join same.symm))
  | case7 this before next after changes apart ih =>
    have swapped := leads.replace [this, next] (Leads.swap change changes (Ne.symm apart))
    exact ih change (by simpa using swapped)

/-- A pass over the edits of a kind keeps a script valid. -/
theorem leads_slideKind {kind : EditKind} {before edits : List Edit} (change : kind ≠ .keep)
    (leads : Leads sides p (before.reverse ++ edits) q) :
    Leads sides p (slideKind sides kind before edits) q := by
  fun_induction slideKind sides kind before edits with
  | case1 => simpa using leads
  | case2 before edit after same up place whole left progress ih =>
    subst same
    have raised := leads_slideUp change leads
    have lowered := leads_slideDown (by rwa [kind_slideUp]) raised
    refine ih ?_
    simpa [Place.script] using lowered
  | case3 before edit after same up place whole left stuck =>
    subst same
    have raised := leads_slideUp change leads
    exact leads_slideDown (by rwa [kind_slideUp]) raised
  | case4 before edit after other ih => exact ih (by simpa using leads)

/-- The tidy form of a script leads where the script does. -/
theorem leads_compact {script : List Edit} (leads : Leads sides p script q) :
    Leads sides p (compact sides script) q := by
  have deletions : Leads sides p (slideKind sides .delete [] script) q :=
    leads_slideKind (by decide) leads
  have insertions : Leads sides p ([].reverse ++ slideKind sides .delete [] script) q := deletions
  exact leads_slideKind (by decide) insertions

/-- The script between two texts leads through all their lines. -/
theorem leads_script (old new : Text) : Leads (sidesOf old new) ⟨0, 0⟩ (script old new)
    ⟨(Text.lines old).length, (Text.lines new).length⟩ := by
  have whole (lines : List Text) : Next lines.toArray 0 lines := by
    simp [Next, linesAt_eq]
  have leads : Leads (sidesOf old new) ⟨0, 0⟩ (scriptFrom 0 0 (Text.lines old) (Text.lines new))
      (Point.ahead ⟨0, 0⟩ (Text.lines old).length (Text.lines new).length) :=
    leads_scriptFrom (whole (Text.lines old)) (whole (Text.lines new)) (fun _ => rfl) (fun _ => rfl)
  simpa [script, sidesOf, Point.ahead] using leads_compact leads

end LicenseHeader.Patch
