import LicenseHeader.Proofs.File.LastName

/-!
# Paths beside each other

The names of a path with another file name are those of the path, but for the last one and for dots
in front of it (`Path.exists_names_withFileName`). So it leads to an entry of the same directory
(`FileSystem.resolve_withFileName`).
-/

namespace LicenseHeader

namespace Path

/-- Bytes on both sides of a slash have the pieces of either side. -/
theorem pieces_append_slash (front rest : Bytes) :
    pieces (front ++ slash :: rest) = pieces front ++ pieces rest := by
  induction front with
  | nil => rfl
  | cons b more ih =>
    have whole : slash ∉ ([] : Bytes) := List.not_mem_nil
    obtain ⟨init, piece, cut, -⟩ := pieces_append whole more
    rw [List.cons_append, pieces, pieces, ih, cut]
    by_cases divides : b = slash
    · rw [if_pos divides, if_pos divides]
      rfl
    · rw [if_neg divides, if_neg divides]
      cases init with
      | nil => rfl
      | cons first others => rfl

/-- The pieces of bytes that are not empty. -/
def said (bytes : Bytes) : List Bytes := (pieces bytes).filter (· ≠ [])

/-- Bytes on both sides of a slash say what either side says. -/
theorem said_append_slash (front rest : Bytes) :
    said (front ++ slash :: rest) = said front ++ said rest := by
  unfold said
  rw [pieces_append_slash, List.filter_append]

/-- Bytes without a slash say themselves. -/
theorem said_of_not_mem {bytes : Bytes} (whole : slash ∉ bytes) :
    said bytes = [bytes].filter (· ≠ []) := by
  unfold said
  rw [pieces_of_not_mem whole]

/-- Joined pieces say what they are. -/
theorem said_joinPieces {body : List Bytes} (whole : ∀ piece ∈ body, slash ∉ piece) :
    said (joinPieces body) = body.filter (· ≠ []) := by
  induction body with
  | nil => rfl
  | cons piece more ih =>
    have first := said_of_not_mem (whole piece List.mem_cons_self)
    cases more with
    | nil => exact first
    | cons second others =>
      have rest := ih fun other member => whole other (List.mem_cons_of_mem piece member)
      rw [joinPieces, said_append_slash, first, rest, ← List.filter_append]
      · rfl
      · simp

/-- What the start of a path says and the pieces after it that are not empty. -/
def Parts.said (parts : Parts) : List Bytes :=
  parts.start.toList.flatMap (Path.said ·.bytes) ++ parts.body.filter (· ≠ [])

/-- A path says what its parts say. -/
theorem said_parts (path : Path) : path.parts.said = said path.bytes := by
  unfold parts Parts.said said
  cases pieces path.bytes with
  | nil => rfl
  | cons piece more =>
    cases more with
    | nil =>
      by_cases dot : piece = Component.here.bytes
      · rw [dot]
        rfl
      · simp only [if_neg dot]
        rfl
    | cons second others =>
      by_cases empty : piece = []
      · rw [empty]
        rfl
      · by_cases dot : piece = Component.here.bytes
        · rw [dot]
          rfl
        · simp only [if_neg empty, if_neg dot]
          rfl

/-- A path that is written from parts says what these say. -/
theorem said_ofParts {parts : Parts} (whole : ∀ piece ∈ parts.body, slash ∉ piece) :
    said (ofParts parts).bytes = parts.said := by
  have body := said_joinPieces whole
  obtain ⟨start, pieces⟩ := parts
  dsimp only at body
  unfold ofParts Parts.said
  cases start with
  | none => exact body
  | some first =>
    have divided : said (first.bytes ++ slash :: joinPieces pieces) =
        said first.bytes ++ pieces.filter (· ≠ []) := by
      rw [said_append_slash, body]
    cases first with
    | root =>
      have rooted := said_append_slash [] (joinPieces pieces)
      rw [body] at rooted
      exact rooted
    | _ =>
      cases pieces with
      | nil => simp
      | cons piece more => simpa using divided

/-- The names of a path of which the last piece is not empty are what it says. -/
theorem names_of_last {path : Path} {piece : Bytes}
    (last : (pieces path.bytes).getLast? = some piece) (written : piece ≠ []) :
    FileSystem.names path = said path.bytes := by
  obtain ⟨front, cut⟩ := List.getLast?_eq_some_iff.mp last
  unfold FileSystem.names said
  rw [cut]
  simp [written]

/-- A path is absolute exactly when it starts with a slash. -/
theorem isAbsolute_iff (path : Path) : path.isAbsolute = true ↔ path.bytes.head? = some slash := by
  have whole : slash ∉ ([] : Bytes) := List.not_mem_nil
  unfold isAbsolute parts
  cases path.bytes with
  | nil => decide
  | cons b rest =>
    obtain ⟨init, piece, cut, -⟩ := pieces_append whole rest
    rw [pieces, cut]
    by_cases divides : b = slash
    · cases init <;> simp [divides]
    · rw [if_neg divides]
      cases init with
      | nil =>
        simp only [List.nil_append, List.head?_cons, Option.some.injEq, divides, iff_false]
        split <;> simp
      | cons first others =>
        cases others <;>
          · simp only [List.cons_append, List.nil_append, List.head?_cons, Option.some.injEq,
              divides, iff_false, reduceCtorEq, ↓reduceIte]
            split <;> simp

section Sibling

variable {path : Path} {piece name : Bytes}

/-- The pieces after the start of a path end in its last piece, if that says anything. -/
theorem exists_body (last : (pieces path.bytes).getLast? = some piece)
    (saying : ¬ isIdle piece = true) : ∃ front, path.parts.body = front ++ [piece] ∧
      (path.parts.start = none → ∀ first ∈ front.head?, first ≠ []) := by
  obtain ⟨init, cut⟩ := List.getLast?_eq_some_iff.mp last
  have solid : piece ≠ Component.here.bytes := by
    intro dot
    exact saying (by rw [dot]; rfl)
  unfold parts
  rw [cut]
  cases init with
  | nil =>
    refine ⟨[], ?_⟩
    simp [solid]
  | cons first more =>
    cases rest : more ++ [piece] with
    | nil => exact absurd rest (by simp)
    | cons second others =>
      simp only [List.cons_append, rest]
      by_cases empty : first = []
      · refine ⟨more, ?_⟩
        simp [empty, rest]
      · by_cases dot : first = Component.here.bytes
        · refine ⟨more, ?_⟩
          have written : Component.here.bytes ≠ [] := by decide
          simp [written, dot, rest]
        · refine ⟨first :: more, ?_⟩
          simp [empty, dot, rest]

/-- Only pieces that say nothing are dropped at the end. -/
theorem exists_dropIdleEnd (body : List Bytes) : ∃ front idles, body = front ++ idles ∧
    dropIdleEnd body = front ∧ ∀ idle ∈ idles, isIdle idle = true := by
  refine ⟨dropIdleEnd body, (body.reverse.takeWhile isIdle).reverse, ?_, rfl, ?_⟩
  · unfold dropIdleEnd
    rw [← List.reverse_append, List.takeWhile_append_dropWhile, List.reverse_reverse]
  · intro idle member
    exact List.all_eq_true.mp List.all_takeWhile idle (List.mem_reverse.mp member)

/-- A path joined with bytes without a slash says more at its end. -/
theorem names_join (base : Path) (whole : slash ∉ name) (written : name ≠ []) :
    FileSystem.names (base.join ⟨name⟩) = said base.bytes ++ [name] ∧
      ((base.join ⟨name⟩).isAbsolute = base.isAbsolute) := by
  have single : said name = [name] := by
    rw [said_of_not_mem whole]
    simp [written]
  have leading : name.head? ≠ some slash := fun first => whole (List.mem_of_mem_head? first)
  have relative : (⟨name⟩ : Path).isAbsolute = false := by
    rw [← Bool.not_eq_true, isAbsolute_iff]
    exact leading
  have ends (front : Bytes) : (pieces (front ++ slash :: name)).getLast? = some name := by
    rw [pieces_append_slash, pieces_of_not_mem whole, List.getLast?_concat]
  have absolute {p q : Path} (same : p.bytes.head? = some slash ↔ q.bytes.head? = some slash) :
      p.isAbsolute = q.isAbsolute := by
    rw [Bool.eq_iff_iff, isAbsolute_iff, isAbsolute_iff, same]
  unfold join
  rw [if_neg (by simp [relative])]
  cases final : base.bytes.getLast? with
  | none =>
    have empty : base.bytes = [] := List.getLast?_eq_none_iff.mp final
    have last : (pieces name).getLast? = some name := by
      rw [pieces_of_not_mem whole]
      rfl
    refine ⟨?_, absolute ?_⟩
    · rw [names_of_last last written, single, empty]
      rfl
    · simp [empty, leading]
  | some b =>
    obtain ⟨front, cut⟩ := List.getLast?_eq_some_iff.mp final
    by_cases divides : b = slash
    · simp only [if_pos divides]
      refine ⟨?_, absolute ?_⟩
      · have extended : said (front ++ [slash]) = said front := by
          rw [said_append_slash front []]
          exact List.append_nil _
        rw [cut, divides, extended, List.append_assoc, List.singleton_append]
        rw [names_of_last (ends front) written, said_append_slash, single]
      · simp [cut]
    · simp only [if_neg divides]
      refine ⟨?_, absolute ?_⟩
      · rw [names_of_last (ends base.bytes) written, said_append_slash, single]
      · simp [cut]

/-- The path without its last component is absolute when it is. -/
theorem isAbsolute_ofParts {front rest : List Bytes} (body : path.parts.body = front ++ rest)
    (leading : path.parts.start = none → ∀ first ∈ front.head?, first ≠ []) :
    (ofParts { path.parts with body := front }).isAbsolute = path.isAbsolute := by
  have whole : ∀ piece ∈ front, slash ∉ piece := by
    intro piece member
    have present : piece ∈ path.parts.body := by
      rw [body]
      exact List.mem_append_left rest member
    exact not_mem_of_mem_pieces ((parts_of_pieces path).2 piece present)
  rw [Bool.eq_iff_iff, isAbsolute_iff]
  unfold isAbsolute ofParts
  cases start : path.parts.start with
  | none =>
    have written := leading start
    cases front with
    | nil => simp [joinPieces]
    | cons first more =>
      have present := written first rfl
      obtain ⟨b, others, rfl⟩ := List.exists_cons_of_ne_nil present
      have solid : b ≠ slash := by
        rintro rfl
        exact whole _ List.mem_cons_self List.mem_cons_self
      cases more <;> simp [joinPieces, solid]
  | some component =>
    have named := (parts_of_pieces path).1
    cases component with
    | root => simp
    | here => cases front <;> simp [Component.bytes, slash]
    | up => cases front <;> simp [Component.bytes, slash]
    | entry name => exact absurd start (named name)

/-- The names of a path and those of one with another file name have the same ones in front, except
for some that say nothing. -/
theorem exists_names_withFileName (last : (pieces path.bytes).getLast? = some piece)
    (saying : ¬ isIdle piece = true) (level : ¬ piece = Component.up.bytes)
    (whole : slash ∉ name) (written : name ≠ []) :
    ∃ front idles, FileSystem.names path = front ++ idles ++ [piece] ∧
      (∀ idle ∈ idles, isIdle idle = true) ∧
      FileSystem.names (path.withFileName name) = front ++ [name] ∧
      (path.withFileName name).isAbsolute = path.isAbsolute := by
  have named : path.fileName? = some piece := by
    rw [fileName?_of_last last saying, if_neg level]
  obtain ⟨before, body, leading⟩ := exists_body last saying
  obtain ⟨front, idles, rfl, dropped, nothing⟩ := exists_dropIdleEnd before
  have parent : path.parent = ofParts { path.parts with body := front } := by
    have unchanged : dropIdleEnd (front ++ idles ++ [piece]) = front ++ idles ++ [piece] := by
      unfold dropIdleEnd
      simp [saying]
    unfold Path.parent
    rw [body, unchanged, List.dropLast_concat, dropped]
  rw [List.append_assoc] at body
  have solid : piece ≠ [] := by
    rintro rfl
    exact saying rfl
  have divided : ∀ other ∈ front, slash ∉ other := by
    intro other member
    have present : other ∈ path.parts.body := by
      rw [body]
      exact List.mem_append_left _ member
    exact not_mem_of_mem_pieces ((parts_of_pieces path).2 other present)
  have start : path.parts.start = none → ∀ first ∈ front.head?, first ≠ [] := by
    intro none first member
    apply leading none first
    cases front with
    | nil => contradiction
    | cons other more => exact member
  obtain ⟨beside, absolute⟩ := names_join path.parent whole written
  refine ⟨said path.parent.bytes, idles.filter (· ≠ []), ?_, ?_, ?_, ?_⟩
  · rw [names_of_last last solid, ← said_parts, parent, said_ofParts divided]
    unfold Parts.said
    rw [body]
    simp [solid]
  · intro idle member
    exact nothing idle (List.mem_filter.mp member).1
  · unfold withFileName
    rw [named]
    exact beside
  · unfold withFileName
    rw [named]
    exact absolute.trans (parent ▸ isAbsolute_ofParts body start)

end Sibling

end Path

namespace FileSystem

section Follows

variable {tree : FileTree} {links : Nat} {directory goal : Location} {front idles : List Bytes}
  {last name : Bytes}

/-- The first of names in three parts is the first name of the first part that has any. -/
theorem first_of_parts {first : Bytes} {rest : List Bytes}
    (whole : front ++ idles ++ [last] = first :: rest) :
    (∃ more, front = first :: more ∧ more ++ idles ++ [last] = rest) ∨
      (front = [] ∧ ∃ more, idles = first :: more ∧ more ++ [last] = rest) ∨
      (front = [] ∧ idles = [] ∧ last = first ∧ rest = []) := by
  cases front with
  | cons name more =>
    obtain ⟨rfl, rest⟩ := List.cons.inj whole
    exact .inl ⟨more, rfl, rest⟩
  | nil =>
    cases idles with
    | cons name more =>
      obtain ⟨rfl, rest⟩ := List.cons.inj whole
      exact .inr (.inl ⟨rfl, more, rfl, rest⟩)
    | nil =>
      obtain ⟨rfl, rest⟩ := List.cons.inj whole
      exact .inr (.inr ⟨rfl, rfl, rfl, rest.symm⟩)

/-- Names that lead to an entry lead beside it when the last one is another, also without names that
say nothing in front of it. -/
theorem Follows.beside
    (leads : Follows tree .kept links directory (front ++ idles ++ [last]) goal)
    (nothing : ∀ idle ∈ idles, Path.isIdle idle = true) (saying : ¬ Path.isIdle last = true)
    (level : ¬ last = Component.up.bytes) (named : IsEntryName name) :
    Follows tree .kept links directory (front ++ [name]) (goal.dropLast ++ [name]) := by
  have allowed (name : Bytes) (rest : List Bytes) : MayCreate .kept name rest := by
    simp [MayCreate]
  generalize whole : front ++ idles ++ [last] = names at leads
  induction leads generalizing front idles with
  | nil => simp at whole
  | idle here _ idle _ ih =>
    rcases first_of_parts whole with ⟨more, rfl, rest⟩ | ⟨rfl, more, rfl, rest⟩ |
      ⟨rfl, rfl, rfl, rfl⟩
    · exact .idle here (allowed _ _) idle (ih nothing rest)
    · exact ih (fun other member => nothing other (List.mem_cons_of_mem _ member)) rest
    · exact absurd idle saying
  | up here _ _ ih =>
    rcases first_of_parts whole with ⟨more, rfl, rest⟩ | ⟨rfl, more, rfl, rest⟩ |
      ⟨rfl, rfl, rfl, rfl⟩
    · exact .up here (allowed _ _) (ih nothing rest)
    · exact absurd (nothing _ List.mem_cons_self) (by decide)
    · exact absurd rfl level
  | enter here _ entry solid step ih =>
    rcases first_of_parts whole with ⟨more, rfl, rest⟩ | ⟨rfl, more, rfl, rest⟩ |
      ⟨rfl, rfl, rfl, rfl⟩
    · exact .enter here (allowed _ _) entry solid (ih nothing rest)
    · exact absurd (nothing _ List.mem_cons_self) entry.saying
    · cases step
      rw [List.dropLast_concat]
      exact .single here named
  | keep here _ entry there kept =>
    rcases first_of_parts whole with ⟨more, rfl, rest⟩ | ⟨rfl, more, rfl, rest⟩ |
      ⟨rfl, rfl, rfl, -⟩
    · exact absurd rest (by simp)
    · exact absurd rest (by simp)
    · rw [List.dropLast_concat]
      exact .single here named
  | @link links directory goal first rest target here _ entry there on _ ih =>
    rcases first_of_parts whole with ⟨more, rfl, rfl⟩ | ⟨rfl, more, rfl, rest⟩ |
      ⟨rfl, rfl, rfl, rfl⟩
    · -- The names of the target come in front of the rest of the first part.
      have joined : Follows tree .kept links (if target.isAbsolute then [] else directory)
          (FileSystem.names target ++ more ++ [name]) (goal.dropLast ++ [name]) :=
        ih nothing (by simp)
      rw [List.append_assoc] at joined
      exact .link here (allowed _ _) entry there (by simp) joined
    · exact absurd (nothing _ List.mem_cons_self) entry.saying
    · exact absurd ⟨rfl, rfl⟩ on

end Follows

/-- A path with another file name leads to the entry of this name beside that of the path, when the
path leads to something else than a directory. -/
theorem resolve_withFileName {files : FileSystem} {path : Path} {goal place : Location}
    {old name : Bytes} (had : path.fileName? = some old)
    (found : files.resolve .kept path = .ok goal)
    (other : files.tree.get? goal ≠ some .directory) (whole : Path.slash ∉ name)
    (saying : ¬ Path.isIdle name = true) (level : ¬ name = Component.up.bytes)
    (also : files.resolve .kept (path.withFileName name) = .ok place) :
    place = goal.dropLast ++ [name] := by
  obtain ⟨last, speaks, stays⟩ := getLast?_of_fileName? had found other
  have written : name ≠ [] := by
    rintro rfl
    exact saying rfl
  obtain ⟨front, idles, names, nothing, beside, absolute⟩ :=
    Path.exists_names_withFileName last speaks stays whole written
  obtain ⟨-, leads⟩ := resolve_eq_ok_iff.mp found
  obtain ⟨-, aims⟩ := resolve_eq_ok_iff.mp also
  have named := (aims.getLast?_eq (by rw [beside, List.getLast?_concat]) saying level).2
  rw [names] at leads
  have expected := leads.beside nothing speaks stays named
  rw [beside, show files.startOf (path.withFileName name) = files.startOf path by
    unfold startOf; rw [absolute]] at aims
  have same := (follow_of_follows aims).symm.trans (follow_of_follows expected)
  exact Except.ok.inj same

end FileSystem

end LicenseHeader
