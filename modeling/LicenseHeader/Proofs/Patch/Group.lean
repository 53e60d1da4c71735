import LicenseHeader.Proofs.Patch.Slide
import Mathlib.Data.List.Chain

/-!
# Hunks cover every change

The blocks of a script walk where the script leads, and kept lines and changes alternate in them.
Cutting kept lines at both ends, and in the middle of long runs of them, takes away nothing but
lines that both texts share: `Patch.spans_hunks` says that the hunks, with such gaps before, between
and behind them, cover both texts. `Patch.tight_hunks` says that every hunk has a change and at most
`Patch.context` kept lines at either end.
-/

namespace LicenseHeader.Patch

variable {sides : Sides} {p q r : Point}

/-! ## Blocks of a script -/

/-- Two blocks that are both kept or both changed fit together. -/
theorem Block.Fits.merge {first second : Block} (fits : first.Fits sides p)
    (onward : second.Fits sides (first.stop p)) (alike : first.same = second.same) :
    (first.merge second).Fits sides p where
  filled := by
    have := fits.filled
    simp only [Block.merge]
    omega
  oldPlace := by
    intro some
    simp only [Block.merge] at some ⊢
    split
    next none =>
      have place := onward.oldPlace (by omega)
      rwa [Block.stop, Point.ahead_old, none] at place
    next filled => exact fits.oldPlace (Nat.pos_of_ne_zero filled)
  newPlace := by
    intro some
    simp only [Block.merge] at some ⊢
    split
    next none =>
      have place := onward.newPlace (by omega)
      rwa [Block.stop, Point.ahead_new, none] at place
    next filled => exact fits.newPlace (Nat.pos_of_ne_zero filled)
  oldWithin := by
    have := onward.oldWithin
    simp only [Block.stop, Point.ahead_old] at this
    simp only [Block.merge]
    omega
  newWithin := by
    have := onward.newWithin
    simp only [Block.stop, Point.ahead_new] at this
    simp only [Block.merge]
    omega
  even := by
    intro same
    have first := fits.even same
    have second := onward.even (alike ▸ same)
    simp only [Block.merge, first, second]
  agree := by
    intro same
    have first := fits.agree same
    have second := onward.agree (alike ▸ same)
    rw [Block.stop, fits.even same] at second
    exact agree_add.mpr ⟨first, second⟩

/-- Two blocks that are merged end where they did. -/
theorem stop_merge (first second : Block) :
    (first.merge second).stop p = second.stop (first.stop p) := by
  simp [Block.stop, Block.merge]

/-- A block put in front of a walk, merged or not. -/
theorem walks_blockCons {first : Block} {rest : List Block}
    (walk : Walks sides p (first :: rest) q) : Walks sides p (first.cons rest) q := by
  cases rest with
  | nil => exact walk
  | cons second more =>
    simp only [Block.cons]
    split
    next alike =>
      obtain ⟨fits, onward, walk⟩ := walk
      exact ⟨fits.merge onward alike, by rwa [stop_merge]⟩
    next => exact walk

/-- The blocks of a script walk where the script leads. -/
theorem walks_blocks {script : List Edit} (leads : Leads sides p script q) :
    Walks sides p (blocks script) q := by
  induction script generalizing p with
  | nil => exact leads
  | cons edit script ih =>
    obtain ⟨fits, onward⟩ := leads_cons.mp leads
    exact walks_blockCons ⟨fits, ih onward⟩

/-- Whether kept lines and changes alternate. -/
def Alternate (blocks : List Block) : Prop := (blocks.map Block.same).IsChain (· ≠ ·)

/-- A block put in front keeps kept lines and changes alternating. -/
theorem alternate_blockCons {first : Block} {rest : List Block} (alternate : Alternate rest) :
    Alternate (first.cons rest) := by
  cases rest with
  | nil => exact .singleton _
  | cons second more =>
    simp only [Block.cons]
    split
    next alike =>
      unfold Alternate at *
      rwa [List.map_cons, show (first.merge second).same = second.same from alike,
        ← List.map_cons]
    next apart => exact List.isChain_cons_cons.mpr ⟨apart, alternate⟩

/-- Kept lines and changes alternate in the blocks of a script. -/
theorem alternate_blocks (script : List Edit) : Alternate (blocks script) := by
  induction script with
  | nil => exact .nil
  | cons edit script ih => exact alternate_blockCons ih

/-! ## Gaps -/

/-- Two points between which lie only lines that both texts share. -/
def Gap (sides : Sides) (p q : Point) : Prop :=
  ∃ count, q = p.ahead count count ∧ Agree sides p count

/-- No gap. -/
theorem gap_refl (sides : Sides) (p : Point) : Gap sides p p :=
  ⟨0, rfl, by simp [Agree]⟩

/-- Two gaps are one. -/
theorem Gap.trans (first : Gap sides p q) (second : Gap sides q r) : Gap sides p r := by
  obtain ⟨m, rfl, agree⟩ := first
  obtain ⟨n, rfl, onward⟩ := second
  exact ⟨m + n, Point.ahead_ahead .., agree_add.mpr ⟨agree, onward⟩⟩

/-- Kept lines alone are a gap. -/
theorem gap_of_walks {blocks : List Block} (walk : Walks sides p blocks q)
    (kept : ∀ block ∈ blocks, block.same = true) : Gap sides p q := by
  induction blocks generalizing p with
  | nil =>
    obtain rfl := walks_nil.mp walk
    exact gap_refl sides p
  | cons block more ih =>
    obtain ⟨fits, onward⟩ := walk
    have same := kept block List.mem_cons_self
    have first : Gap sides p (block.stop p) :=
      ⟨block.oldLength, by rw [Block.stop, fits.even same], fits.agree same⟩
    exact first.trans (ih onward fun other member => kept other (List.mem_cons_of_mem _ member))

/-- Hunks that cover both texts from a point to another, with gaps before, between and behind
them. -/
def Spans (sides : Sides) : Point → List (List Block) → Point → Prop
  | p, [], q => Gap sides p q
  | p, hunk :: more, q => ∃ start stop,
      Gap sides p start ∧ Walks sides start hunk stop ∧ Spans sides stop more q

/-- A gap in front of what hunks cover. -/
theorem Gap.spans {hunks : List (List Block)} (gap : Gap sides p q)
    (spans : Spans sides q hunks r) : Spans sides p hunks r := by
  cases hunks with
  | nil => exact gap.trans spans
  | cons hunk more =>
    obtain ⟨start, stop, before, walk, onward⟩ := spans
    exact ⟨start, stop, gap.trans before, walk, onward⟩

/-- A gap behind what hunks cover. -/
theorem Spans.gap {hunks : List (List Block)} (spans : Spans sides p hunks q)
    (gap : Gap sides q r) : Spans sides p hunks r := by
  induction hunks generalizing p with
  | nil => exact Gap.trans spans gap
  | cons hunk more ih =>
    obtain ⟨start, stop, before, walk, onward⟩ := spans
    exact ⟨start, stop, before, walk, ih onward⟩

/-! ## Fewer kept lines -/

section Kept

variable {block : Block} {count : Nat}

/-- The first of some kept lines. -/
theorem Block.Fits.takeLines (fits : block.Fits sides p) (same : block.same = true)
    (some : 0 < count) : (block.takeLines count).Fits sides p := by
  obtain ⟨filled, oldPlace, newPlace, oldWithin, newWithin, even, agree⟩ := fits
  have even := even same
  constructor
  · simp only [Block.takeLines]
    omega
  · exact fun some => oldPlace (Nat.lt_of_lt_of_le some (Nat.min_le_left ..))
  · exact fun some => newPlace (Nat.lt_of_lt_of_le some (Nat.min_le_left ..))
  · simp only [Block.takeLines]
    omega
  · simp only [Block.takeLines]
    omega
  · intro _
    simp only [Block.takeLines, even]
  · intro _
    have parts : block.oldLength =
        min block.oldLength count + (block.oldLength - min block.oldLength count) := by omega
    rw [parts] at agree
    exact (agree_add.mp (agree same)).1

/-- Kept lines without the first ones, and the gap where these were. -/
theorem Block.Fits.dropLines (fits : block.Fits sides p) (same : block.same = true)
    (fewer : count < block.oldLength) :
    Gap sides p (p.ahead count count) ∧
      (block.dropLines count).Fits sides (p.ahead count count) ∧
      (block.dropLines count).stop (p.ahead count count) = block.stop p := by
  obtain ⟨filled, oldPlace, newPlace, oldWithin, newWithin, even, agree⟩ := fits
  have even := even same
  obtain ⟨rest, parts⟩ := Nat.exists_eq_add_of_lt fewer
  have agree := agree same
  rw [parts, Nat.add_assoc] at agree
  obtain ⟨first, others⟩ := agree_add.mp agree
  refine ⟨⟨count, rfl, first⟩, ⟨?_, ?_, ?_, ?_, ?_, ?_, ?_⟩, ?_⟩
  · simp only [Block.dropLines]
    omega
  · intro _
    simp only [Block.dropLines, Point.ahead_old, oldPlace (by omega)]
  · intro _
    simp only [Block.dropLines, Point.ahead_new, newPlace (by omega)]
  · simp only [Block.dropLines, Point.ahead_old]
    omega
  · simp only [Block.dropLines, Point.ahead_new]
    omega
  · intro _
    simp only [Block.dropLines, even]
  · intro _
    rwa [Block.dropLines, parts, Nat.add_assoc, Nat.add_sub_cancel_left]
  · simp only [Block.stop, Block.dropLines, Point.ahead_ahead, even]
    congr 1
    · omega
    · omega

/-- Kept lines are their first ones and a gap. -/
theorem Block.Fits.gap_takeLines (fits : block.Fits sides p) (same : block.same = true)
    (fewer : count ≤ block.oldLength) :
    (block.takeLines count).stop p = p.ahead count count ∧
      Gap sides (p.ahead count count) (block.stop p) := by
  have even := fits.even same
  have agree := fits.agree same
  obtain ⟨rest, parts⟩ := Nat.exists_eq_add_of_le fewer
  rw [parts] at agree
  refine ⟨?_, rest, ?_, (agree_add.mp agree).2⟩
  · rw [Block.stop, Block.takeLines, even, Nat.min_eq_right fewer]
  · rw [Block.stop, even, parts, Point.ahead_ahead]

end Kept

/-- Cutting the first block leaves a gap in front. -/
theorem walks_trimFirst {blocks : List Block} (walk : Walks sides p blocks q) :
    ∃ s, Gap sides p s ∧ Walks sides s (trimFirst blocks) q := by
  cases blocks with
  | nil => exact ⟨p, gap_refl sides p, walk⟩
  | cons first more =>
    obtain ⟨fits, onward⟩ := walk
    simp only [trimFirst]
    split
    next same =>
      have filled : 0 < first.oldLength := by
        have := fits.filled
        have := fits.even same
        omega
      have fewer : first.oldLength - context < first.oldLength :=
        Nat.sub_lt filled (by decide)
      obtain ⟨gap, cut, stop⟩ := fits.dropLines same fewer
      exact ⟨_, gap, cut, by rwa [stop]⟩
    next => exact ⟨p, gap_refl sides p, fits, onward⟩

/-- Cutting the last block leaves a gap behind. -/
theorem walks_trimLast {blocks : List Block} (walk : Walks sides p blocks q) :
    ∃ e, Walks sides p (trimLast blocks) e ∧ Gap sides e q := by
  fun_induction trimLast blocks generalizing p with
  | case1 => exact ⟨q, walk, gap_refl sides q⟩
  | case2 last =>
    obtain ⟨fits, rfl⟩ := walk
    split
    next same =>
      by_cases long : context ≤ last.oldLength
      · obtain ⟨stop, gap⟩ := fits.gap_takeLines same long
        refine ⟨_, ⟨fits.takeLines same (by decide), rfl⟩, ?_⟩
        rwa [stop]
      · have whole : last.takeLines context = last := by
          have even := fits.even same
          obtain ⟨_, _, oldLength, _, newLength⟩ := last
          obtain rfl : newLength = oldLength := even
          simp only [Block.takeLines, Nat.min_eq_left (Nat.le_of_not_le long)]
        rw [whole]
        exact ⟨_, ⟨fits, rfl⟩, gap_refl sides _⟩
    next => exact ⟨_, ⟨fits, rfl⟩, gap_refl sides _⟩
  | case3 first second more ih =>
    obtain ⟨fits, onward⟩ := walk
    obtain ⟨e, walk, gap⟩ := ih onward
    exact ⟨e, ⟨fits, walk⟩, gap⟩

/-- Grouping blocks leaves out gaps only. -/
theorem spans_group {pending blocks : List Block}
    (walk : Walks sides p (pending.reverse ++ blocks) q) :
    Spans sides p (group pending blocks) q := by
  fun_induction group pending blocks generalizing p with
  | case1 pending kept =>
    rw [List.append_nil] at walk
    exact gap_of_walks walk (by simpa using kept)
  | case2 pending changed =>
    rw [List.append_nil] at walk
    exact ⟨p, q, gap_refl sides p, walk, gap_refl sides q⟩
  | case3 pending block more long ih =>
    simp only [Bool.and_eq_true, decide_eq_true_eq] at long
    obtain ⟨same, long⟩ := long
    obtain ⟨s, start, fits, onward⟩ := walks_append.mp walk
    have filled : 0 < block.oldLength - context := by
      simp only [context] at long ⊢
      omega
    have fewer : block.oldLength - context < block.oldLength :=
      Nat.sub_lt (Nat.zero_lt_of_lt long) (by decide)
    have enough : context ≤ block.oldLength - context := by
      simp only [context] at long ⊢
      omega
    have shown : Walks sides p (pending.reverse ++ [block.takeLines context])
        (s.ahead context context) := by
      have stop := (fits.gap_takeLines same (Nat.le_trans enough (Nat.le_of_lt fewer))).1
      exact start.append ⟨fits.takeLines same (by decide), by rw [stop]; rfl⟩
    have between : Gap sides (s.ahead context context)
        (s.ahead (block.oldLength - context) (block.oldLength - context)) := by
      rw [← (fits.gap_takeLines same (Nat.le_of_lt fewer)).1]
      refine ((fits.takeLines same filled).gap_takeLines same ?_).2
      simpa only [Block.takeLines, Nat.min_eq_right (Nat.le_of_lt fewer)] using enough
    obtain ⟨-, cut, stop⟩ := fits.dropLines same fewer
    have rest := ih (p := s.ahead (block.oldLength - context) (block.oldLength - context))
      ⟨cut, by rwa [stop]⟩
    rw [List.reverse_cons]
    exact ⟨p, _, gap_refl sides p, shown, between.spans rest⟩
  | case4 pending block more short ih => exact ih (by simpa using walk)

/-! ## What every hunk looks like -/

/-- Blocks that alternate, with no more kept lines at either end than are shown. -/
structure Tight (blocks : List Block) : Prop where
  /-- Kept lines and changes alternate. -/
  alternate : Alternate blocks
  /-- The first block has few kept lines. -/
  first : ∀ block ∈ blocks.head?, block.same = true → block.oldLength ≤ context
  /-- The last block has few kept lines. -/
  last : ∀ block ∈ blocks.getLast?, block.same = true → block.oldLength ≤ context

/-- Cutting the first block does not change which blocks are kept. -/
theorem map_same_trimFirst (blocks : List Block) :
    (trimFirst blocks).map Block.same = blocks.map Block.same := by
  cases blocks with
  | nil => rfl
  | cons first more =>
    simp only [trimFirst]
    split <;> rfl

/-- Cutting the last block does not change which blocks are kept. -/
theorem map_same_trimLast (blocks : List Block) :
    (trimLast blocks).map Block.same = blocks.map Block.same := by
  fun_induction trimLast blocks with
  | case1 => rfl
  | case2 last => split <;> rfl
  | case3 first second more ih =>
    rw [List.map_cons, ih]
    rfl

/-- What is left of a block after all lines but those shown are dropped. -/
theorem few_dropLines (block : Block) :
    (block.dropLines (block.oldLength - context)).oldLength ≤ context := by
  simp only [Block.dropLines]
  omega

/-- The first block has few kept lines once it is cut. -/
theorem head_trimFirst (blocks : List Block) :
    ∀ block ∈ (trimFirst blocks).head?, block.same = true → block.oldLength ≤ context := by
  cases blocks with
  | nil => simp [trimFirst]
  | cons first more =>
    simp only [trimFirst, List.head?_cons, Option.mem_some_iff, forall_eq']
    split
    next => exact fun _ => few_dropLines first
    next changed => exact fun same => absurd same changed

/-- Cutting the last block leaves no more lines in the first one. -/
theorem head_trimLast {blocks : List Block}
    (few : ∀ block ∈ blocks.head?, block.same = true → block.oldLength ≤ context) :
    ∀ block ∈ (trimLast blocks).head?, block.same = true → block.oldLength ≤ context := by
  fun_induction trimLast blocks with
  | case1 => exact few
  | case2 last =>
    simp only [List.head?_cons, Option.mem_some_iff, forall_eq'] at few ⊢
    split
    next same => exact fun _ => Nat.min_le_right ..
    next => exact few
  | case3 first second more => exact few

/-- The last block has few kept lines once it is cut. -/
theorem getLast_trimLast (blocks : List Block) :
    ∀ block ∈ (trimLast blocks).getLast?, block.same = true → block.oldLength ≤ context := by
  fun_induction trimLast blocks with
  | case1 => simp
  | case2 last =>
    simp only [List.getLast?_singleton, Option.mem_some_iff, forall_eq']
    split
    next => exact fun _ => Nat.min_le_right ..
    next changed => exact fun same => absurd same changed
  | case3 first second more ih =>
    cases cut : trimLast (second :: more) with
    | nil =>
      have kept := map_same_trimLast (second :: more)
      simp [cut] at kept
    | cons next others =>
      rw [cut] at ih
      rwa [List.getLast?_cons_cons]

/-- What is cut at both ends is tight. -/
theorem tight_trim {blocks : List Block} (alternate : Alternate blocks) :
    Tight (trimLast (trimFirst blocks)) where
  alternate := by
    unfold Alternate
    rwa [map_same_trimLast, map_same_trimFirst]
  first := head_trimLast (head_trimFirst blocks)
  last := getLast_trimLast (trimFirst blocks)

/-- Grouping tight blocks makes tight hunks, each with a change. -/
theorem tight_group {pending blocks : List Block} (tight : Tight (pending.reverse ++ blocks)) :
    ∀ hunk ∈ group pending blocks, Tight hunk ∧ ∃ block ∈ hunk, block.same = false := by
  fun_induction group pending blocks with
  | case1 => simp
  | case2 pending changed =>
    rw [List.append_nil] at tight
    simpa [tight] using changed
  | case3 pending block more long ih =>
    simp only [Bool.and_eq_true, decide_eq_true_eq] at long
    obtain ⟨same, long⟩ := long
    obtain ⟨alternate, first, last⟩ := tight
    have parts :
        (pending.reverse.map Block.same ++ true :: more.map Block.same).IsChain (· ≠ ·) := by
      rw [← same, ← List.map_cons, ← List.map_append]
      exact alternate
    obtain ⟨before, after, apart⟩ := List.isChain_append.mp parts
    -- Something is pending, since the first of all blocks has few kept lines.
    obtain ⟨previous, earlier, rfl⟩ : ∃ previous earlier, pending = previous :: earlier := by
      cases pending with
      | nil =>
        have few := first block (by simp) same
        simp only [context] at few long
        omega
      | cons previous earlier => exact ⟨previous, earlier, rfl⟩
    have changed : previous.same = false := by
      have := apart previous.same (by simp) true (by simp)
      simpa using this
    intro hunk member
    obtain rfl | member := List.mem_cons.mp member
    · refine ⟨⟨?_, ?_, ?_⟩, previous, by simp, changed⟩
      · rw [Alternate, List.reverse_cons, List.map_append]
        refine List.isChain_append.mpr ⟨before, .singleton _, fun x here y there => ?_⟩
        exact apart x here y (by simpa [Block.takeLines, same] using there)
      · simpa [List.head?_append] using first
      · simp only [List.getLast?_reverse, List.head?_cons, Option.mem_some_iff, forall_eq']
        exact fun _ => Nat.min_le_right ..
    · refine ih ⟨?_, ?_, ?_⟩ hunk member
      · rw [← same] at after
        exact after
      · simpa using fun _ => few_dropLines block
      · cases more with
        | nil => simpa using fun _ => few_dropLines block
        | cons next others =>
          simpa [List.getLast?_append, List.getLast?_cons_cons] using last
  | case4 pending block more short ih => exact ih (by simpa using tight)

/-- The hunks of a script cover what it leads through. -/
theorem spans_hunks {script : List Edit} (leads : Leads sides p script q) :
    Spans sides p (hunks script) q := by
  obtain ⟨s, before, walk⟩ := walks_trimFirst (walks_blocks leads)
  obtain ⟨e, walk, behind⟩ := walks_trimLast walk
  exact before.spans ((spans_group walk).gap behind)

/-- Every hunk of a script is tight and has a change. -/
theorem tight_hunks (script : List Edit) :
    ∀ hunk ∈ hunks script, Tight hunk ∧ ∃ block ∈ hunk, block.same = false :=
  tight_group (tight_trim (alternate_blocks script))

end LicenseHeader.Patch
