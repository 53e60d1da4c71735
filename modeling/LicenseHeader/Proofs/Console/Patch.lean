import LicenseHeader.Console.Patch
import LicenseHeader.Proofs.Patch.Saved
import LicenseHeader.Proofs.Text.Rows

/-!
# The colours of a patch

Every row of a patch has a role: it names the file, it is the head of a hunk, or it is a line of a
hunk, which is kept, deleted or inserted. The role says which paint tells what the row is.

A row is painted by what it starts with. An inserted line that starts with two plus signs and a
deleted line that starts with two minus signs read like rows that name the file, and are not
painted. `Console.painted_by_role_iff` says that these are the only rows whose paint is not that of
their role, as long as the name of the file is one line.
-/

namespace LicenseHeader

/-- Whether the row of a line starts as the rows that name a file do. -/
def Patch.Row.looksLikeTitle (row : Patch.Row) : Bool :=
  match row.kind with
  | .keep => false
  | .delete => "--".toList.isPrefixOf row.line
  | .insert => "++".toList.isPrefixOf row.line

namespace Console

open Patch (hunks script render sidesOf shownRows)

/-- What a row of a patch is. -/
inductive Role where
  /-- It names the file. -/
  | title
  /-- It is the head of a hunk. -/
  | head
  /-- It is a line of a hunk. -/
  | line (kind : EditKind)
  deriving DecidableEq, Repr

/-- The paint that tells what a row is, if it has one. -/
def Role.paint? : Role → Option Paint
  | title => none
  | head => some .cyan
  | line .keep => none
  | line .delete => some .red
  | line .insert => some .green

/-- A row in a paint, or as it is. -/
def inPaint (console : Console) (paint? : Option Paint) (row : Text) : String :=
  match paint? with
  | some paint => console.paint paint (String.ofList row)
  | none => String.ofList row

/-- The lines that name the file of a patch. -/
def titleText (name : Text) : Text :=
  "--- a/".toList ++ (name ++ "\n+++ b/".toList ++ (name ++ ['\n']))

/-- The row of a line of a hunk: its mark and the line without its terminator. -/
def lineRow (row : Patch.Row) : Text := Patch.markOf row.kind :: Text.rowOf row.line

/-- The rows of a hunk, each with what it is. -/
def hunkRoles (sides : Patch.Sides) (blocks : List Patch.Block) : List (Role × Text) :=
  match blocks.head?, blocks.getLast? with
  | some first, some last =>
    (.head, Text.rowOf (Patch.headText first last).toList) ::
      (Patch.rowsOf sides blocks).map fun row => (.line row.kind, lineRow row)
  | _, _ => []

/-- The rows of the patch between two texts, each with what it is. -/
def roles (name old new : Text) : List (Role × Text) :=
  match hunks (script old new) with
  | [] => []
  | found =>
    (Text.rows (titleText name)).map (Role.title, ·) ++
      found.flatMap (hunkRoles (sidesOf old new))

/-! ## The rows of a patch -/

section Rows

variable {sides : Patch.Sides} {row : Patch.Row} {old new : Text}

/-- Whether the line of a row ends with a line feed, which is its terminator. -/
def Feeds (row : Patch.Row) : Prop := Text.Ended row.line ∧ row.line.getLast? = some '\n'

/-- The line of a row that ends with a line feed is printed behind its mark. -/
theorem printed_of_feeds (feeds : Feeds row) :
    row.printed = [Patch.markOf row.kind :: row.line] := by
  unfold Patch.Row.printed
  rw [feeds.2]
  rfl

/-- A printed line ends with its only line feed and has one row. -/
theorem rowOf_printed (feeds : Feeds row) :
    Text.Fed (Patch.markOf row.kind :: row.line) ∧
      Text.rowOf (Patch.markOf row.kind :: row.line) = lineRow row := by
  have apart := Patch.isBreak_markOf row.kind
  obtain ⟨ended, last⟩ := feeds
  exact ⟨(ended.cons apart).fed (by rw [List.getLast?_cons, last]; rfl),
    Text.rowOf_cons apart ended last⟩

/-- The head of a hunk ends with a line feed. -/
theorem getLast?_headText (first last : Patch.Block) :
    (Patch.headText first last).toList.getLast? = some '\n' := by
  rw [Patch.toList_headText]
  simp only [List.getLast?_append]
  rfl

/-- The lines of a printed hunk end with their only line feeds, and their rows are those of the
hunk. -/
theorem rowOf_hunkLines {blocks : List Patch.Block}
    (feeds : ∀ row ∈ Patch.rowsOf sides blocks, Feeds row) :
    (∀ line ∈ Patch.hunkLines sides blocks, Text.Fed line) ∧
      (Patch.hunkLines sides blocks).map Text.rowOf = (hunkRoles sides blocks).map Prod.snd := by
  have lines : (Patch.rowsOf sides blocks).flatMap Patch.Row.printed =
      (Patch.rowsOf sides blocks).map fun row => Patch.markOf row.kind :: row.line := by
    rw [List.map_eq_flatMap, List.flatMap_def, List.flatMap_def]
    exact congrArg List.flatten
      (List.map_congr_left fun row shown => printed_of_feeds (feeds row shown))
  unfold Patch.hunkLines hunkRoles
  rw [lines]
  cases blocks.head? with
  | none => exact ⟨by simp, rfl⟩
  | some first =>
    cases blocks.getLast? with
    | none => exact ⟨by simp, rfl⟩
    | some last =>
      constructor
      · rw [List.forall_mem_cons, List.forall_mem_map]
        exact ⟨(Patch.ended_headText first last).fed (getLast?_headText first last),
          fun row shown => (rowOf_printed (feeds row shown)).1⟩
      · dsimp only
        rw [List.map_cons, List.map_cons, List.map_map, List.map_map]
        exact congrArg _
          (List.map_congr_left fun row shown => (rowOf_printed (feeds row shown)).2)

/-- The lines of a patch between texts whose lines end with line feeds do so as well. -/
theorem feeds_of_mem {blocks : List Patch.Block}
    (fed : ∀ line ∈ Text.lines old ++ Text.lines new, line.getLast? = some '\n')
    (shown : row ∈ Patch.rowsOf (sidesOf old new) blocks) : Feeds row := by
  have taken := Patch.line_mem_of_mem_rowsOf shown
  have last := fed row.line (List.mem_append.mpr taken)
  refine ⟨(Patch.cut_of_mem_rowsOf shown).resolve_right fun unbroken => ?_, last⟩
  exact absurd (unbroken '\n' (List.mem_of_getLast? last)) (by decide)

/-- The rows of a patch with hunks. -/
theorem roles_eq (name : Text) (changed : hunks (script old new) ≠ []) : roles name old new =
    (Text.rows (titleText name)).map (Role.title, ·) ++
      (hunks (script old new)).flatMap (hunkRoles (sidesOf old new)) := by
  unfold roles
  split
  next none => exact absurd none changed
  next => rfl

/-- A patch without hunks has no rows. -/
theorem roles_of_none (name : Text) (none : hunks (script old new) = []) :
    roles name old new = [] := by
  unfold roles
  rw [none]

/-- The rows of a patch are those that have a role. -/
theorem rows_render (name : Text)
    (fed : ∀ line ∈ Text.lines old ++ Text.lines new, line.getLast? = some '\n') :
    Text.rows (render name old new) = (roles name old new).map Prod.snd := by
  by_cases changed : hunks (script old new) = []
  · rw [roles_of_none name changed]
    unfold render
    rw [changed]
    rfl
  · have hunkRows (blocks : List Patch.Block) := @rowOf_hunkLines (sidesOf old new) blocks
      fun row shown => feeds_of_mem fed shown
    have title : titleText name =
        ("--- a/".toList ++ name ++ "\n+++ b/".toList ++ name) ++ ['\n'] := by
      delta titleText
      simp only [List.append_assoc]
    have whole : render name old new = ("--- a/".toList ++ name ++ "\n+++ b/".toList ++ name) ++
        '\n' :: ((hunks (script old new)).flatMap (Patch.hunkLines (sidesOf old new))).flatten := by
      rw [Patch.render_eq name changed, Patch.flatten_flatMap_hunkLines]
      simp
    have lines : ∀ line ∈ (hunks (script old new)).flatMap (Patch.hunkLines (sidesOf old new)),
        Text.Fed line := by
      intro line member
      obtain ⟨blocks, -, inside⟩ := List.mem_flatMap.mp member
      exact (hunkRows blocks).1 line inside
    rw [whole, Text.rows_append, Text.rows_flatten lines, roles_eq name changed, title,
      List.map_append, List.map_flatMap, List.map_flatMap]
    simp [(hunkRows _).2]

end Rows

/-! ## The paint of a row -/

section Paints

variable {console : Console} {row : Patch.Row} {name old new : Text}

/-- A row of a patch is painted by what it starts with. -/
theorem patchRow_eq (console : Console) (row : Text) :
    console.patchRow row = console.inPaint (rowPaint? row) row := rfl

/-- Different paints show in colour. -/
theorem inPaint_inj (coloured : console.painted = true) {first second : Option Paint} {text : Text}
    (same : console.inPaint first text = console.inPaint second text) : first = second := by
  have written (paint : Paint) : (console.paint paint (String.ofList text)).toList =
      '\x1b' :: '[' :: paint.onCode.toList ++ 'm' :: text ++
        '\x1b' :: '[' :: paint.offCode.toList ++ ['m'] := by
    simp [Console.paint, coloured]
  have texts := congrArg String.toList same
  cases first with
  | none =>
    cases second with
    | none => rfl
    | some paint =>
      have lengths := congrArg List.length texts
      simp only [inPaint, written, String.toList_ofList, List.length_append, List.length_cons]
        at lengths
      omega
  | some paint =>
    cases second with
    | none =>
      have lengths := congrArg List.length texts
      simp only [inPaint, written, String.toList_ofList, List.length_append, List.length_cons]
        at lengths
      omega
    | some other =>
      simp only [inPaint, written] at texts
      cases paint <;> cases other <;> simp [Paint.onCode] at texts ⊢

/-- The row of a line has the paint of its role unless it looks like a title; then it has none. -/
theorem rowPaint?_lineRow (feeds : Feeds row) : rowPaint? (lineRow row) =
    if row.looksLikeTitle then none else (Role.line row.kind).paint? := by
  obtain ⟨ended, last⟩ := feeds
  have starts (start : Text) (unbroken : Text.Unbroken start) :
      start.isPrefixOf (Text.rowOf row.line) = start.isPrefixOf row.line := by
    rw [Bool.eq_iff_iff, List.isPrefixOf_iff_prefix, List.isPrefixOf_iff_prefix]
    exact Text.prefix_rowOf_iff unbroken ended last
  unfold rowPaint? lineRow Patch.Row.looksLikeTitle
  cases row.kind with
  | keep => rfl
  | delete =>
    have plus : "+".toList.isPrefixOf ('-' :: Text.rowOf row.line) = false := rfl
    have minus : "-".toList.isPrefixOf ('-' :: Text.rowOf row.line) = true := rfl
    have head : "@@".toList.isPrefixOf ('-' :: Text.rowOf row.line) = false := rfl
    have title : "---".toList.isPrefixOf ('-' :: Text.rowOf row.line) =
        "--".toList.isPrefixOf row.line := starts "--".toList (by decide)
    simp only [Patch.markOf, plus, minus, head, title]
    cases "--".toList.isPrefixOf row.line <;> rfl
  | insert =>
    have plus : "+".toList.isPrefixOf ('+' :: Text.rowOf row.line) = true := rfl
    have minus : "-".toList.isPrefixOf ('+' :: Text.rowOf row.line) = false := rfl
    have head : "@@".toList.isPrefixOf ('+' :: Text.rowOf row.line) = false := rfl
    have title : "+++".toList.isPrefixOf ('+' :: Text.rowOf row.line) =
        "++".toList.isPrefixOf row.line := starts "++".toList (by decide)
    simp only [Patch.markOf, plus, minus, head, title]
    cases "++".toList.isPrefixOf row.line <;> rfl

/-- The row of a line has the paint of its role exactly when it does not look like a title. -/
theorem rowPaint?_lineRow_iff (feeds : Feeds row) :
    rowPaint? (lineRow row) = (Role.line row.kind).paint? ↔ row.looksLikeTitle = false := by
  rw [rowPaint?_lineRow feeds]
  unfold Patch.Row.looksLikeTitle
  cases row.kind with
  | keep => simp [Role.paint?]
  | delete => cases "--".toList.isPrefixOf row.line <;> simp [Role.paint?]
  | insert => cases "++".toList.isPrefixOf row.line <;> simp [Role.paint?]

/-- The head of a hunk is painted as one. -/
theorem rowPaint?_headText (first last : Patch.Block) :
    rowPaint? (Text.rowOf (Patch.headText first last).toList) = Role.head.paint? := by
  have starts : "@@".toList <+: Text.rowOf (Patch.headText first last).toList := by
    rw [Text.prefix_rowOf_iff (by decide) (Patch.ended_headText first last)
      (getLast?_headText first last), Patch.toList_headText]
    exact ⟨_, rfl⟩
  obtain ⟨rest, whole⟩ := starts
  rw [← whole]
  rfl

/-- A row that starts with three minus signs or three plus signs is not painted. -/
theorem rowPaint?_of_title {start : Text}
    (title : start = "--- a/".toList ∨ start = "+++ b/".toList) (name : Text) :
    rowPaint? (Text.rowOf (start ++ (name ++ ['\n']))) = none := by
  rw [← List.append_assoc, Text.rowOf, List.dropLast_concat, Text.dropLastReturn]
  obtain rfl | rfl := title
  · split <;> rfl
  · split <;> rfl

/-- The rows that name a file are not painted when the name is one line. -/
theorem rowPaint?_titleText (plain : '\n' ∉ name) :
    ∀ row ∈ Text.rows (titleText name), rowPaint? row = none := by
  have fed (start : Text) (apart : '\n' ∉ start) : Text.Fed (start ++ (name ++ ['\n'])) :=
    ⟨start ++ name, by simp, by simp [apart, plain]⟩
  have lines : titleText name =
      ["--- a/".toList ++ (name ++ ['\n']), "+++ b/".toList ++ (name ++ ['\n'])].flatten := by
    have feed : "\n+++ b/".toList = '\n' :: "+++ b/".toList := by decide
    delta titleText
    simp only [feed, List.flatten_cons, List.flatten_nil, List.append_nil, List.append_assoc,
      List.cons_append, List.nil_append]
  have both : ∀ line ∈ ["--- a/".toList ++ (name ++ ['\n']), "+++ b/".toList ++ (name ++ ['\n'])],
      Text.Fed line :=
    List.forall_mem_cons.mpr ⟨fed "--- a/".toList (by decide),
      List.forall_mem_singleton.mpr (fed "+++ b/".toList (by decide))⟩
  rw [lines, Text.rows_flatten both]
  intro row member
  obtain ⟨line, named, rfl⟩ := List.mem_map.mp member
  obtain rfl | rfl : line = _ ∨ line = _ := by
    simpa only [List.mem_cons, List.not_mem_nil, or_false] using named
  · exact rowPaint?_of_title (.inl rfl) name
  · exact rowPaint?_of_title (.inr rfl) name

/-- A row of a hunk is its head or one of its lines. -/
theorem mem_hunkRoles {sides : Patch.Sides} {blocks : List Patch.Block} {part : Role × Text}
    (filled : blocks ≠ []) : part ∈ hunkRoles sides blocks ↔
      part = (.head,
          Text.rowOf (Patch.headText (blocks.head filled) (blocks.getLast filled)).toList) ∨
        ∃ row ∈ Patch.rowsOf sides blocks, part = (.line row.kind, lineRow row) := by
  have head := List.head?_eq_some_head filled
  have last := List.getLast?_eq_some_getLast filled
  simp [hunkRoles, head, last, eq_comm]

/-- The rows of a patch have the paints of their roles exactly when those that name the file are
not painted and no line looks like one of them. -/
theorem rowPaint?_roles_iff
    (fed : ∀ line ∈ Text.lines old ++ Text.lines new, line.getLast? = some '\n') :
    (∀ part ∈ roles name old new, rowPaint? part.2 = part.1.paint?) ↔
      (old ≠ new → ∀ row ∈ Text.rows (titleText name), rowPaint? row = none) ∧
        ∀ row ∈ shownRows old new, row.looksLikeTitle = false := by
  by_cases same : old = new
  · have none : hunks (script old new) = [] := Patch.hunks_script_eq_nil_iff.mpr same
    rw [roles_of_none name none, shownRows, none]
    simp [same]
  · have changed := mt Patch.hunks_script_eq_nil_iff.mp same
    rw [roles_eq name changed, List.forall_mem_append, List.forall_mem_map]
    refine and_congr ?_ ?_
    · simp [same, Role.paint?]
    · unfold shownRows
      rw [List.forall_mem_flatMap, List.forall_mem_flatMap]
      refine forall₂_congr fun blocks member => ?_
      have filled : blocks ≠ [] := by
        rintro rfl
        obtain ⟨-, block, inside, -⟩ := Patch.tight_hunks (script old new) [] member
        contradiction
      constructor
      · intro right row shown
        exact (rowPaint?_lineRow_iff (feeds_of_mem fed shown)).mp
          (right _ ((mem_hunkRoles filled).mpr (.inr ⟨row, shown, rfl⟩)))
      · intro apart part inside
        obtain rfl | ⟨row, shown, rfl⟩ := (mem_hunkRoles filled).mp inside
        · exact rowPaint?_headText _ _
        · exact (rowPaint?_lineRow_iff (feeds_of_mem fed shown)).mpr (apart row shown)

end Paints

/-- The rows of a patch between texts whose lines end with line feeds, on a console that paints.
They have the paints of their roles exactly when no line looks like a row that names the file and
the rows that do so are not painted, as they never are when the name is one line. A line that looks
like such a row is not painted, and every other line is painted by what happens to it. -/
theorem painted_by_role_iff {console : Console} (coloured : console.painted = true) {old new : Text}
    (fed : ∀ line ∈ Text.lines old ++ Text.lines new, line.getLast? = some '\n') (name : Text) :
    Text.rows (render name old new) = (roles name old new).map Prod.snd ∧
      (console.patchRows (render name old new) =
          (roles name old new).map (fun part => console.inPaint part.1.paint? part.2) ↔
        (old ≠ new → ∀ row ∈ Text.rows (titleText name), rowPaint? row = none) ∧
          ∀ row ∈ shownRows old new, row.looksLikeTitle = false) ∧
      ('\n' ∉ name → ∀ row ∈ Text.rows (titleText name), rowPaint? row = none) ∧
      ∀ row ∈ shownRows old new, rowPaint? (lineRow row) =
        if row.looksLikeTitle then none else (Role.line row.kind).paint? := by
  have rows := rows_render name fed
  refine ⟨rows, ?_, rowPaint?_titleText, ?_⟩
  · rw [← rowPaint?_roles_iff fed, patchRows, rows, List.map_map, List.map_inj_left]
    refine forall₂_congr fun part member => ?_
    rw [Function.comp_apply, patchRow_eq]
    exact ⟨inPaint_inj coloured, fun same => by rw [same]⟩
  · intro row shown
    obtain ⟨blocks, -, inside⟩ := List.mem_flatMap.mp shown
    exact rowPaint?_lineRow (feeds_of_mem fed inside)

/-- A console that paints. -/
def inColour : Console := ⟨.normal, true⟩

/-- A line that starts with one plus sign is inserted and painted. -/
theorem painted_by_role_iff_onePlus : inColour.painted = true ∧
    (∀ line ∈ Text.lines "x\n".toList ++ Text.lines "+1\r\nx\n".toList,
      line.getLast? = some '\n') ∧
    inColour.patchRows (render "a.c".toList "x\n".toList "+1\r\nx\n".toList) =
      (roles "a.c".toList "x\n".toList "+1\r\nx\n".toList).map
        fun part => inColour.inPaint part.1.paint? part.2 := by
  have coloured : inColour.painted = true := rfl
  have fed : ∀ line ∈ Text.lines "x\n".toList ++ Text.lines "+1\r\nx\n".toList,
      line.getLast? = some '\n' := by
    decide
  obtain ⟨-, all, titles, -⟩ := painted_by_role_iff coloured fed "a.c".toList
  refine ⟨coloured, fed, all.mpr ⟨fun _ => titles (by decide), ?_⟩⟩
  -- No line of the two texts starts with two signs.
  have plain : ∀ line ∈ Text.lines "x\n".toList ++ Text.lines "+1\r\nx\n".toList,
      "--".toList.isPrefixOf line = false ∧ "++".toList.isPrefixOf line = false := by
    decide
  intro row shown
  obtain ⟨blocks, -, inside⟩ := List.mem_flatMap.mp shown
  have apart := plain row.line (List.mem_append.mpr (Patch.line_mem_of_mem_rowsOf inside))
  unfold Patch.Row.looksLikeTitle
  cases row.kind with
  | keep => rfl
  | delete => exact apart.1
  | insert => exact apart.2

/-! ## An inserted line that is not painted

The line has two plus signs in front, and its row has three. -/

/-- The line is inserted into an empty text. -/
theorem hunks_twoPlus :
    hunks (script [] "++x\n".toList) = [[⟨false, 0, 0, 0, 1⟩]] := by
  have new : Text.lines "++x\n".toList = ["++x\n".toList] := by decide
  have edits : Patch.scriptFrom 0 0 [] ["++x\n".toList] = [⟨.insert, 0, 0, 1⟩] := by
    rw [Patch.scriptFrom_eq]
    rfl
  have tidy : script [] "++x\n".toList = [⟨.insert, 0, 0, 1⟩] := by
    unfold script
    simp only [new, Text.lines, edits]
    cbv
  rw [tidy]
  decide

/-- The row of the inserted line is not green. -/
theorem unpainted_twoPlus :
    (∀ line ∈ Text.lines [] ++ Text.lines "++x\n".toList, line.getLast? = some '\n') ∧
      (Role.line .insert, "+++x".toList) ∈ roles "a.c".toList [] "++x\n".toList ∧
      inColour.patchRows (render "a.c".toList [] "++x\n".toList) =
        ["--- a/a.c", "+++ b/a.c", "\x1b[36m@@ -0,0 +1 @@\x1b[39m", "+++x"] ∧
      inColour.patchRows (render "a.c".toList [] "++x\n".toList) ≠
        (roles "a.c".toList [] "++x\n".toList).map
          fun part => inColour.inPaint part.1.paint? part.2 := by
  have changed : hunks (script [] "++x\n".toList) ≠ [] := by
    rw [hunks_twoPlus]
    simp
  rw [Patch.render_eq _ changed, roles_eq _ changed, hunks_twoPlus]
  decide +kernel

end Console

end LicenseHeader
