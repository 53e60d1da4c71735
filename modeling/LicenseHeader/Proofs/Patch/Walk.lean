import LicenseHeader.Patch.Hunk

/-!
# Walks through two texts

A list of blocks is read as a walk through the old and the new text at once: each block starts at
the point that the ones before it lead to. `Patch.Walks` says so of all blocks of a list, with the
points where the walk starts and ends; an edit script walks when the blocks of its edits do.

A block without lines of a text may carry any position in this text, since nothing reads it there.
`Patch.leads_scriptFrom` shows that the divided problem is solved by a walk through all its lines.
-/

namespace LicenseHeader.Patch

/-- Two texts as lines. -/
def sidesOf (old new : Text) : Sides := ⟨(Text.lines old).toArray, (Text.lines new).toArray⟩

/-- The lines from a position on, as a part of the list of all lines. -/
theorem linesAt_eq (lines : Array Text) (start count : Nat) :
    linesAt lines start count = (lines.toList.drop start).take count := by
  simp [linesAt, List.extract_eq_take_drop]

/-- No lines. -/
@[simp]
theorem linesAt_zero (lines : Array Text) (start : Nat) : linesAt lines start 0 = [] := by
  simp [linesAt_eq]

/-- Lines and the lines after them. -/
theorem linesAt_add (lines : Array Text) (start m n : Nat) :
    linesAt lines start (m + n) = linesAt lines start m ++ linesAt lines (start + m) n := by
  simp only [linesAt_eq, List.take_add, List.drop_drop]

/-- As many lines as asked for, when there are that many. -/
theorem length_linesAt {lines : Array Text} {start count : Nat}
    (within : start + count ≤ lines.size) : (linesAt lines start count).length = count := by
  simp only [linesAt_eq, List.length_take, List.length_drop, Array.length_toList]
  omega

/-- The first of some lines. -/
theorem take_linesAt (lines : Array Text) (start : Nat) {m n : Nat} (fewer : m ≤ n) :
    (linesAt lines start n).take m = linesAt lines start m := by
  simp only [linesAt_eq, List.take_take, Nat.min_eq_left fewer]

/-- Some lines without the first ones. -/
theorem drop_linesAt (lines : Array Text) (start m n : Nat) :
    (linesAt lines start n).drop m = linesAt lines (start + m) (n - m) := by
  simp only [linesAt_eq, List.drop_take, List.drop_drop]

/-- The point that lies some old and some new lines further on. -/
def Point.ahead (p : Point) (old new : Nat) : Point := ⟨p.old + old, p.new + new⟩

@[simp]
theorem Point.ahead_old (p : Point) (old new : Nat) : (p.ahead old new).old = p.old + old := rfl

@[simp]
theorem Point.ahead_new (p : Point) (old new : Nat) : (p.ahead old new).new = p.new + new := rfl

/-- Going further on twice. -/
@[simp]
theorem Point.ahead_ahead (p : Point) (a b c d : Nat) :
    (p.ahead a b).ahead c d = p.ahead (a + c) (b + d) := by
  simp [Point.ahead, Nat.add_assoc]

/-- Whether the next lines from a point on are the same in both texts. -/
def Agree (sides : Sides) (p : Point) (count : Nat) : Prop :=
  linesAt sides.old p.old count = linesAt sides.new p.new count

/-- Lines agree when the first ones do and the ones after them do. -/
theorem agree_add {sides : Sides} {p : Point} {m n : Nat} :
    Agree sides p (m + n) ↔ Agree sides p m ∧ Agree sides (p.ahead m m) n := by
  constructor
  · intro agree
    have first := congrArg (List.take m) agree
    have others := congrArg (List.drop m) agree
    rw [take_linesAt _ _ (Nat.le_add_right m n), take_linesAt _ _ (Nat.le_add_right m n)] at first
    rw [drop_linesAt, drop_linesAt, Nat.add_sub_cancel_left] at others
    exact ⟨first, others⟩
  · rintro ⟨first, others⟩
    unfold Agree at *
    rw [linesAt_add, linesAt_add, first]
    exact congrArg _ others

/-- What a block that starts at a point is for the texts: it has lines, it knows its position in
every text that it has lines of, and kept lines are the same in both. -/
structure Block.Fits (sides : Sides) (p : Point) (block : Block) : Prop where
  /-- The block has lines. -/
  filled : 0 < block.oldLength + block.newLength
  /-- The position of its old lines. -/
  oldPlace : 0 < block.oldLength → block.old = p.old
  /-- The position of its new lines. -/
  newPlace : 0 < block.newLength → block.new = p.new
  /-- The old text has these lines. -/
  oldWithin : p.old + block.oldLength ≤ sides.old.size
  /-- The new text has these lines. -/
  newWithin : p.new + block.newLength ≤ sides.new.size
  /-- Kept lines are as many in both texts. -/
  even : block.same = true → block.newLength = block.oldLength
  /-- Kept lines are the same in both texts. -/
  agree : block.same = true → Agree sides p block.oldLength

/-- The point behind a block that starts at a point. -/
def Block.stop (block : Block) (p : Point) : Point := p.ahead block.oldLength block.newLength

/-- Whether blocks lead from a point to another, each fitting where the ones before it lead to. -/
def Walks (sides : Sides) : Point → List Block → Point → Prop
  | p, [], q => p = q
  | p, block :: more, q => block.Fits sides p ∧ Walks sides (block.stop p) more q

section Walks

variable {sides : Sides} {p q r : Point} {block : Block}

/-- No block leads nowhere. -/
@[simp]
theorem walks_nil : Walks sides p [] q ↔ p = q := Iff.rfl

/-- A walk starts with its first block. -/
@[simp]
theorem walks_cons {more : List Block} :
    Walks sides p (block :: more) q ↔ block.Fits sides p ∧ Walks sides (block.stop p) more q :=
  Iff.rfl

/-- A walk can be cut between any two blocks. -/
theorem walks_append {first second : List Block} :
    Walks sides p (first ++ second) r ↔ ∃ q, Walks sides p first q ∧ Walks sides q second r := by
  induction first generalizing p with
  | nil => simp
  | cons block first ih => simp [ih, and_assoc]

/-- A walk goes on from where another one ends. -/
theorem Walks.append {first second : List Block} (walk : Walks sides p first q)
    (onward : Walks sides q second r) : Walks sides p (first ++ second) r :=
  walks_append.mpr ⟨q, walk, onward⟩

/-- A part of a walk may be replaced by one that leads to the same point. -/
theorem Walks.replace (part : List Block) {before other after : List Block}
    (replaces : ∀ {s e}, Walks sides s part e → Walks sides s other e)
    (walk : Walks sides p (before ++ (part ++ after)) r) :
    Walks sides p (before ++ (other ++ after)) r := by
  obtain ⟨s, start, walk⟩ := walks_append.mp walk
  obtain ⟨e, middle, onward⟩ := walks_append.mp walk
  exact start.append ((replaces middle).append onward)

/-- A walk does not go back. -/
theorem Walks.le {blocks : List Block} (walk : Walks sides p blocks q) :
    p.old ≤ q.old ∧ p.new ≤ q.new := by
  induction blocks generalizing p with
  | nil =>
    obtain rfl := walks_nil.mp walk
    exact ⟨Nat.le_refl _, Nat.le_refl _⟩
  | cons block blocks ih =>
    have further := ih (walks_cons.mp walk).2
    simp only [Block.stop, Point.ahead_old, Point.ahead_new] at further
    omega

end Walks

/-! ## Edits as blocks -/

/-- Whether an edit script leads from a point to another. -/
def Leads (sides : Sides) (p : Point) (script : List Edit) (q : Point) : Prop :=
  Walks sides p (script.map Block.ofEdit) q

section Edits

variable {sides : Sides} {p q r : Point} {old new count : Nat}

/-- Where kept lines fit. -/
theorem fits_keep : (Block.ofEdit ⟨.keep, old, new, count⟩).Fits sides p ↔
    0 < count ∧ old = p.old ∧ new = p.new ∧ p.old + count ≤ sides.old.size ∧
      p.new + count ≤ sides.new.size ∧ Agree sides p count := by
  constructor
  · intro fits
    have filled : 0 < count := by
      have := fits.filled
      simp only [Block.ofEdit] at this
      omega
    exact ⟨filled, fits.oldPlace filled, fits.newPlace filled, fits.oldWithin, fits.newWithin,
      fits.agree rfl⟩
  · rintro ⟨filled, rfl, rfl, oldWithin, newWithin, agree⟩
    exact ⟨Nat.add_pos_left filled _, fun _ => rfl, fun _ => rfl, oldWithin, newWithin,
      fun _ => rfl, fun _ => agree⟩

/-- Where deleted lines fit. -/
theorem fits_delete : (Block.ofEdit ⟨.delete, old, new, count⟩).Fits sides p ↔
    0 < count ∧ old = p.old ∧ p.old + count ≤ sides.old.size ∧ p.new ≤ sides.new.size := by
  constructor
  · intro fits
    have filled : 0 < count := fits.filled
    exact ⟨filled, fits.oldPlace filled, fits.oldWithin, fits.newWithin⟩
  · rintro ⟨filled, rfl, oldWithin, newWithin⟩
    exact ⟨filled, fun _ => rfl, fun some => absurd some (Nat.lt_irrefl 0), oldWithin, newWithin,
      nofun, nofun⟩

/-- Where inserted lines fit. -/
theorem fits_insert : (Block.ofEdit ⟨.insert, old, new, count⟩).Fits sides p ↔
    0 < count ∧ new = p.new ∧ p.old ≤ sides.old.size ∧ p.new + count ≤ sides.new.size := by
  constructor
  · intro fits
    have filled : 0 < count := by
      have := fits.filled
      simp only [Block.ofEdit] at this
      omega
    exact ⟨filled, fits.newPlace filled, fits.oldWithin, fits.newWithin⟩
  · rintro ⟨filled, rfl, oldWithin, newWithin⟩
    exact ⟨Nat.add_pos_right _ filled, fun some => absurd some (Nat.lt_irrefl 0), fun _ => rfl,
      oldWithin, newWithin, nofun, nofun⟩

@[simp]
theorem stop_keep : (Block.ofEdit ⟨.keep, old, new, count⟩).stop p = p.ahead count count := rfl

@[simp]
theorem stop_delete : (Block.ofEdit ⟨.delete, old, new, count⟩).stop p = p.ahead count 0 := rfl

@[simp]
theorem stop_insert : (Block.ofEdit ⟨.insert, old, new, count⟩).stop p = p.ahead 0 count := rfl

/-- No edit leads nowhere. -/
@[simp]
theorem leads_nil : Leads sides p [] q ↔ p = q := Iff.rfl

/-- A script starts with its first edit. -/
@[simp]
theorem leads_cons {edit : Edit} {more : List Edit} : Leads sides p (edit :: more) q ↔
    (Block.ofEdit edit).Fits sides p ∧ Leads sides ((Block.ofEdit edit).stop p) more q :=
  Iff.rfl

/-- A script goes on from where another one ends. -/
theorem Leads.append {first second : List Edit} (leads : Leads sides p first q)
    (onward : Leads sides q second r) : Leads sides p (first ++ second) r := by
  unfold Leads
  rw [List.map_append]
  exact Walks.append leads onward

/-- A part of a script may be replaced by one that leads to the same point. -/
theorem Leads.replace (part : List Edit) {before other after : List Edit}
    (replaces : ∀ {s e}, Leads sides s part e → Leads sides s other e)
    (leads : Leads sides p (before ++ (part ++ after)) r) :
    Leads sides p (before ++ (other ++ after)) r := by
  unfold Leads at *
  simp only [List.map_append] at *
  exact leads.replace _ replaces

end Edits

/-! ## The divided problem -/

/-- Lines that are the next lines of a text. -/
def Next (lines : Array Text) (start : Nat) (next : List Text) : Prop :=
  start + next.length ≤ lines.size ∧ linesAt lines start next.length = next

section Next

variable {lines : Array Text} {start : Nat}

/-- The next lines are cut into the first of them and the ones after these. -/
theorem next_append {first second : List Text} : Next lines start (first ++ second) ↔
    Next lines start first ∧ Next lines (start + first.length) second := by
  unfold Next
  rw [List.length_append, linesAt_add]
  constructor
  · rintro ⟨within, same⟩
    have whole : (linesAt lines start first.length).length = first.length :=
      length_linesAt (by omega)
    obtain ⟨same, others⟩ := List.append_inj same whole
    exact ⟨⟨by omega, same⟩, by omega, others⟩
  · rintro ⟨⟨-, same⟩, within, others⟩
    exact ⟨by omega, by rw [same, others]⟩

end Next

/-- What two lists have in common at their end is the same in both. -/
theorem drop_commonEnd (a b : List Text) :
    a.drop (a.length - commonEnd a b) = b.drop (b.length - commonEnd a b) := by
  have same := take_commonStart a.reverse b.reverse
  rw [List.take_reverse, List.take_reverse, List.reverse_inj] at same
  exact same

/-- The division of two lists puts them together again: the same lines start both, and the same
lines end both. -/
theorem exists_trim (old new : List Text) : ∃ start finish : List Text,
    start.length = (trim old new).leading ∧ finish.length = (trim old new).trailing ∧
      old = start ++ ((trim old new).old ++ finish) ∧
      new = start ++ ((trim old new).new ++ finish) := by
  have leadingOld := commonStart_le_left old new
  have leadingNew := commonStart_le_right old new
  have trailingOld : commonEnd (old.drop (commonStart old new)) (new.drop (commonStart old new)) ≤
      (old.drop (commonStart old new)).length := by
    simpa [commonEnd] using commonStart_le_left (old.drop (commonStart old new)).reverse
      (new.drop (commonStart old new)).reverse
  refine ⟨old.take (commonStart old new), (old.drop (commonStart old new)).drop
    ((old.drop (commonStart old new)).length -
      commonEnd (old.drop (commonStart old new)) (new.drop (commonStart old new))),
    ?_, ?_, ?_, ?_⟩
  · simp [trim, leadingOld]
  · rw [List.length_drop]
    simp only [trim]
    omega
  · simp only [trim, List.take_append_drop]
  · rw [drop_commonEnd, take_commonStart]
    simp only [trim, List.take_append_drop]

/-- An edit without lines may be left out. -/
theorem leads_unlessEmpty {sides : Sides} {p : Point} {edit : Edit}
    (fits : 0 < edit.length → (Block.ofEdit edit).Fits sides p) :
    Leads sides p (unlessEmpty edit) ((Block.ofEdit edit).stop p) := by
  obtain ⟨kind, old, new, length⟩ := edit
  unfold unlessEmpty
  split
  next none =>
    obtain rfl : length = 0 := none
    cases kind <;> rfl
  next some => exact ⟨fits (Nat.pos_of_ne_zero some), rfl⟩

/-- What lies behind a cut lies behind as many lines as were cut off. -/
theorem length_take_of_drop {lines : List Text} {count : Nat} (some : lines.drop count ≠ []) :
    lines ≠ [] ∧ (lines.take count).length = count := by
  have within : count < lines.length := by simpa using some
  exact ⟨List.ne_nil_of_length_pos (Nat.zero_lt_of_lt within),
    List.length_take_of_le (Nat.le_of_lt within)⟩

section Divided

variable {sides : Sides} {p : Point} {oldStart newStart : Nat} {old new : List Text}

/-- A script between what both lists do not share is a script between the lists, once the lines they
share stand around it as kept ones. -/
theorem leads_around {between : List Edit} (oldNext : Next sides.old p.old old)
    (newNext : Next sides.new p.new new) (oldPlace : old ≠ [] → oldStart = p.old)
    (newPlace : new ≠ [] → newStart = p.new)
    (leads : ∀ s, s = p.ahead (trim old new).leading (trim old new).leading →
      Next sides.old s.old (trim old new).old → Next sides.new s.new (trim old new).new →
      Leads sides s between (s.ahead (trim old new).old.length (trim old new).new.length)) :
    Leads sides p
      (unlessEmpty ⟨.keep, oldStart, newStart, (trim old new).leading⟩ ++ between ++
        unlessEmpty ⟨.keep, oldStart + (trim old new).leading + (trim old new).old.length,
          newStart + (trim old new).leading + (trim old new).new.length,
          (trim old new).trailing⟩)
      (p.ahead old.length new.length) := by
  obtain ⟨start, finish, leading, trailing, oldParts, newParts⟩ := exists_trim old new
  -- From here on the parts of the division are any lists that fit together.
  generalize trim old new = parts at *
  obtain ⟨_, oldRest, newRest, _⟩ := parts
  obtain rfl : start.length = _ := leading
  obtain rfl : finish.length = _ := trailing
  simp only at oldParts newParts leads ⊢
  subst oldParts newParts
  obtain ⟨oldFirst, oldNext⟩ := next_append.mp oldNext
  obtain ⟨newFirst, newNext⟩ := next_append.mp newNext
  obtain ⟨oldNext, oldLast⟩ := next_append.mp oldNext
  obtain ⟨newNext, newLast⟩ := next_append.mp newNext
  have first : Leads sides p (unlessEmpty ⟨.keep, oldStart, newStart, start.length⟩)
      (p.ahead start.length start.length) := by
    refine leads_unlessEmpty fun some => fits_keep.mpr ⟨some, ?_, ?_, oldFirst.1, newFirst.1, ?_⟩
    · exact oldPlace (by simp [List.ne_nil_of_length_pos some])
    · exact newPlace (by simp [List.ne_nil_of_length_pos some])
    · exact oldFirst.2.trans newFirst.2.symm
  have last : Leads sides
      ((p.ahead start.length start.length).ahead oldRest.length newRest.length)
      (unlessEmpty ⟨.keep, oldStart + start.length + oldRest.length,
        newStart + start.length + newRest.length, finish.length⟩)
      (((p.ahead start.length start.length).ahead oldRest.length newRest.length).ahead
        finish.length finish.length) := by
    refine leads_unlessEmpty fun some => fits_keep.mpr ⟨some, ?_, ?_, oldLast.1, newLast.1, ?_⟩
    · rw [oldPlace (by simp [List.ne_nil_of_length_pos some])]
      rfl
    · rw [newPlace (by simp [List.ne_nil_of_length_pos some])]
      rfl
    · exact oldLast.2.trans newLast.2.symm
  have whole := (first.append (leads _ rfl oldNext newNext)).append last
  simpa only [Point.ahead_ahead, List.length_append, Nat.add_assoc] using whole

/-- The script between the next lines of both texts leads behind them. The start of a list matters
only when the list has lines, so a cut outside the lists does no harm. -/
theorem leads_scriptFrom (oldNext : Next sides.old p.old old) (newNext : Next sides.new p.new new)
    (oldPlace : old ≠ [] → oldStart = p.old) (newPlace : new ≠ [] → newStart = p.new) :
    Leads sides p (scriptFrom oldStart newStart old new) (p.ahead old.length new.length) := by
  fun_induction scriptFrom oldStart newStart old new generalizing p with
  | case1 oldStart newStart old new parts oldAt newAt between first =>
    rename_i second
    refine leads_around oldNext newNext oldPlace newPlace fun s start oldRest newRest => ?_
    obtain ⟨_, _, -, -, oldParts, newParts⟩ := exists_trim old new
    have oldFilled (filled : parts.old ≠ []) : oldAt = s.old := by
      rw [start, Point.ahead_old, ← oldPlace (by rw [oldParts]; simp [parts, filled])]
    have newFilled (filled : parts.new ≠ []) : newAt = s.new := by
      rw [start, Point.ahead_new, ← newPlace (by rw [newParts]; simp [parts, filled])]
    change Leads sides s between (s.ahead parts.old.length parts.new.length)
    unfold between
    split
    next c found =>
      rw [← List.take_append_drop c.old parts.old] at oldRest
      rw [← List.take_append_drop c.new parts.new] at newRest
      obtain ⟨oldFirst, oldSecond⟩ := next_append.mp oldRest
      obtain ⟨newFirst, newSecond⟩ := next_append.mp newRest
      have start := first c found oldFirst newFirst
        (fun some => oldFilled (List.ne_nil_of_take_ne_nil some))
        (fun some => newFilled (List.ne_nil_of_take_ne_nil some))
      have finish := @second c found
        (s.ahead (parts.old.take c.old).length (parts.new.take c.new).length) oldSecond newSecond
        (fun some => by
          obtain ⟨filled, count⟩ := length_take_of_drop some
          rw [Point.ahead_old, count, oldFilled filled])
        (fun some => by
          obtain ⟨filled, count⟩ := length_take_of_drop some
          rw [Point.ahead_new, count, newFilled filled])
      have whole := start.append finish
      simpa only [Point.ahead_ahead, ← List.length_append, List.take_append_drop] using whole
    next =>
      have deleted : Leads sides s (unlessEmpty ⟨.delete, oldAt, newAt, parts.old.length⟩)
          (s.ahead parts.old.length 0) :=
        leads_unlessEmpty fun some => fits_delete.mpr ⟨some,
          oldFilled (List.ne_nil_of_length_pos some), oldRest.1, Nat.le_of_add_right_le newRest.1⟩
      have inserted : Leads sides (s.ahead parts.old.length 0)
          (unlessEmpty ⟨.insert, oldAt, newAt, parts.new.length⟩)
          ((s.ahead parts.old.length 0).ahead 0 parts.new.length) :=
        leads_unlessEmpty fun some => fits_insert.mpr ⟨some,
          newFilled (List.ne_nil_of_length_pos some), oldRest.1, newRest.1⟩
      simpa only [Point.ahead_ahead, Nat.add_zero, Nat.zero_add] using deleted.append inserted

end Divided

end LicenseHeader.Patch
