import LicenseHeader.Patch.Script

/-!
# Tidy edit scripts

A deletion or an insertion can often slide along lines that are kept: what it takes in at one end
equals what it gives up at the other. `Patch.compact` moves every deletion and then every insertion
up as far as it goes and then down as far as it goes; it joins those of one kind that meet and
passes those of the other kind.
-/

namespace LicenseHeader.Patch

/-- The two texts as lines. -/
structure Sides where
  /-- The lines of the old text. -/
  old : Array Text
  /-- The lines of the new text. -/
  new : Array Text

/-- The lines from a position on. -/
def linesAt (lines : Array Text) (start count : Nat) : List Text :=
  (lines.extract start (start + count)).toList

/-- The lines that an edit takes from the old text. -/
def Sides.oldLines (sides : Sides) (edit : Edit) : List Text :=
  match edit.kind with
  | .insert => []
  | _ => linesAt sides.old edit.old edit.length

/-- The lines that an edit takes from the new text. -/
def Sides.newLines (sides : Sides) (edit : Edit) : List Text :=
  match edit.kind with
  | .delete => []
  | _ => linesAt sides.new edit.new edit.length

/-- A place in an edit script: the edit under way, the edits before it from the nearest on, and the
edits after it. -/
structure Place where
  /-- The edits before, the nearest first. -/
  before : List Edit
  /-- The edit under way. -/
  this : Edit
  /-- The edits after, the nearest first. -/
  after : List Edit
  deriving Repr

/-- How much room edits give to one that moves through them. -/
def room (edits : List Edit) : Nat := edits.foldr (fun edit room => edit.length + 1 + room) 0

/-- One edit fewer gives less room. -/
theorem room_lt_cons (edit : Edit) (edits : List Edit) : room edits < room (edit :: edits) := by
  simp [room]

/-- An edit with fewer lines gives less room. -/
theorem room_cons_lt {short long : Edit} (edits : List Edit)
    (shorter : short.length < long.length) : room (short :: edits) < room (long :: edits) := by
  simp [room, shorter]

/-- Kept lines put in front of the edits after a place. -/
def keepAfter (kept : Edit) : List Edit → List Edit
  | [] => [kept]
  | next :: more =>
    if next.kind = .keep then next.extendUp kept.length :: more else kept :: next :: more

/-- Kept lines put behind the edits before a place. -/
def keepBefore (kept : Edit) : List Edit → List Edit
  | [] => [kept]
  | previous :: more =>
    if previous.kind = .keep then previous.extend kept.length :: more
    else kept :: previous :: more

/-- The place after the edit under way has moved up as far as it goes. -/
def slideUp (sides : Sides) (this : Edit) : List Edit → List Edit → Place
  | [], after => ⟨[], this, after⟩
  | previous :: before, after =>
    if previous.kind = .keep then
      let count := commonEnd (sides.oldLines previous) (sides.newLines this)
      if previous.length = 0 then slideUp sides this before after
      else if _stuck : count = 0 then ⟨previous :: before, this, after⟩
      else
        let kept : Edit :=
          ⟨.keep, previous.old + previous.length - count, this.new + this.length - count, count⟩
        let moved := this.moveUp count
        if _some : count < previous.length then
          slideUp sides moved (previous.shorten count :: before) (keepAfter kept after)
        else slideUp sides moved before (keepAfter kept after)
    else if previous.kind = this.kind then
      slideUp sides (previous.extend this.length) before after
    else slideUp sides this before (previous :: after)
  termination_by before => room before
  decreasing_by
    · exact room_lt_cons ..
    · exact room_cons_lt _ (Nat.sub_lt (Nat.zero_lt_of_lt _some) (Nat.pos_of_ne_zero _stuck))
    · exact room_lt_cons ..
    · exact room_lt_cons ..
    · exact room_lt_cons ..

/-- The place after the edit under way has moved down as far as it goes. -/
def slideDown (sides : Sides) (this : Edit) (before : List Edit) : List Edit → Place
  | [] => ⟨before, this, []⟩
  | next :: after =>
    if next.kind = .keep then
      let count := commonStart (sides.oldLines next) (sides.newLines this)
      if next.length = 0 then slideDown sides this before after
      else if _stuck : count = 0 then ⟨before, this, next :: after⟩
      else
        let kept : Edit := ⟨.keep, next.old, this.new, count⟩
        let moved := this.moveDown count
        if _some : count < next.length then
          slideDown sides moved (keepBefore kept before) (next.shortenUp count :: after)
        else slideDown sides moved (keepBefore kept before) after
    else if next.kind = this.kind then
      slideDown sides (this.extend next.length) before after
    else slideDown sides this (next :: before) after
  termination_by after => room after
  decreasing_by
    · exact room_lt_cons ..
    · exact room_cons_lt _ (Nat.sub_lt (Nat.zero_lt_of_lt _some) (Nat.pos_of_ne_zero _stuck))
    · exact room_lt_cons ..
    · exact room_lt_cons ..
    · exact room_lt_cons ..

/-- How many edits have a kind. -/
def countKind (kind : EditKind) (edits : List Edit) : Nat := edits.countP (·.kind = kind)

/-- The script with every edit of a kind slid up and then down, in order; `before` are the edits
that are done, the nearest first. An edit that comes to rest further from the end than it started
has met another of its kind, so that every step leaves fewer edits of the kind or fewer edits to
come, which is what the pass goes by. -/
def slideKind (sides : Sides) (kind : EditKind) (before : List Edit) : List Edit → List Edit
  | [] => before.reverse
  | edit :: after =>
    if edit.kind = kind then
      let up := slideUp sides edit before after
      let place := slideDown sides up.this up.before up.after
      let whole := countKind kind (before ++ edit :: after)
      let left := countKind kind (place.this :: place.before ++ place.after)
      if _progress : left < whole ∨ (left = whole ∧ place.after.length ≤ after.length) then
        slideKind sides kind (place.this :: place.before) place.after
      else place.before.reverse ++ place.this :: place.after
    else slideKind sides kind (edit :: before) after
  termination_by edits => (countKind kind (before ++ edits), edits.length)
  decreasing_by
    · obtain fewer | ⟨same, nearer⟩ := _progress
      · exact Prod.Lex.left _ _ fewer
      · exact Prod.Lex.right' _ (Nat.le_of_eq same) (Nat.lt_succ_of_le nearer)
    · refine Prod.Lex.right' _ (Nat.le_of_eq ?_) (Nat.lt_succ_self _)
      simp only [countKind, List.cons_append, List.countP_append, List.countP_cons]
      omega

/-- The tidy form of an edit script. -/
def compact (sides : Sides) (script : List Edit) : List Edit :=
  slideKind sides .insert [] (slideKind sides .delete [] script)

end LicenseHeader.Patch
