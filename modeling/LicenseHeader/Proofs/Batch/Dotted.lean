import LicenseHeader.Proofs.Batch.Room
import LicenseHeader.Proofs.Exclude.Spelling
import LicenseHeader.Proofs.Path.Shown
import LicenseHeader.Proofs.Path.Text

/-!
# Spellings without room for a staging file

Dots between the names of a path change nothing but its length. So every file below a directory has
spellings of any length that lead to it (`resolve_dotted`), and where such a path is just not too
long, that of its staging file is (`length_stagingPath_dotted`).
-/

namespace LicenseHeader

namespace Path

section Joined

variable {body : List Bytes} {piece name : Bytes}

/-- A name has bytes. -/
theorem IsName.ne_nil (named : IsName name) : name ≠ [] := by
  rintro rfl
  exact named.saying rfl

/-- Pieces that end in one which says something keep their end. -/
theorem dropIdleEnd_concat (front : List Bytes) (saying : ¬ isIdle piece = true) :
    dropIdleEnd (front ++ [piece]) = front ++ [piece] := by
  unfold dropIdleEnd
  rw [List.reverse_concat, List.dropWhile_cons_of_neg saying, ← List.reverse_concat,
    List.reverse_reverse]

/-- Another file name takes the place of the last of joined pieces. -/
theorem withFileName_joinPieces {front : List Bytes} {above : Bytes}
    (solid : ∀ other ∈ front ++ [above], other ≠ [] ∧ slash ∉ other)
    (saying : ∀ other, (front ++ [above]).head? = some other → ¬ isIdle other = true)
    (final : ¬ isIdle above = true) (named : IsName piece) (whole : slash ∉ name) :
    (⟨joinPieces (front ++ [above] ++ [piece])⟩ : Path).withFileName name =
      ⟨joinPieces (front ++ [above] ++ [name])⟩ := by
  have divided : ∀ other ∈ front ++ [above] ++ [piece], slash ∉ other := by
    intro other member
    rcases List.mem_append.mp member with before | last
    · exact (solid other before).2
    · exact List.mem_singleton.mp last ▸ named.whole
  have leading : (front ++ [above] ++ [piece]).head? = (front ++ [above]).head? :=
    List.head?_append_of_ne_nil _ (by simp)
  have parts := parts_joinPieces (by simp) divided fun other first =>
    saying other (leading ▸ first)
  have last : (pieces (joinPieces (front ++ [above] ++ [piece]))).getLast? = some piece := by
    rw [pieces_joinPieces (by simp) divided, List.getLast?_concat]
  have known : (⟨joinPieces (front ++ [above] ++ [piece])⟩ : Path).fileName? = some piece := by
    rw [fileName?_of_last last named.saying, if_neg named.level]
  have parent : (⟨joinPieces (front ++ [above] ++ [piece])⟩ : Path).parent =
      ⟨joinPieces (front ++ [above])⟩ := by
    unfold Path.parent
    rw [parts]
    dsimp only
    rw [dropIdleEnd_concat _ named.saying, List.dropLast_concat, dropIdleEnd_concat _ final]
    rfl
  unfold withFileName
  rw [known, parent]
  exact join_joinPieces solid whole

end Joined

/-- The pieces of a path with dots behind the first name. -/
def dottedPieces (first : Bytes) (rest : List Bytes) (count : Nat) : List Bytes :=
  first :: (List.replicate count Component.here.bytes ++ rest)

/-- The path with the given names and dots behind the first one. -/
def dotted (first : Bytes) (rest : List Bytes) (count : Nat) : Path :=
  ⟨joinPieces (dottedPieces first rest count)⟩

section Dotted

variable {first : Bytes} {rest : List Bytes} (leading : IsName first)
  (proper : ∀ name ∈ rest, IsName name)

include leading proper

/-- The pieces of a dotted path have bytes and hold no slash. -/
theorem solid_dottedPieces (count : Nat) :
    ∀ piece ∈ dottedPieces first rest count, piece ≠ [] ∧ slash ∉ piece := by
  intro piece member
  rcases List.mem_cons.mp member with rfl | behind
  · exact ⟨leading.ne_nil, leading.whole⟩
  · rcases List.mem_append.mp behind with dot | name
    · rw [List.eq_of_mem_replicate dot]
      decide
    · exact ⟨(proper piece name).ne_nil, (proper piece name).whole⟩

/-- The pieces of a dotted path are those that it is made from. -/
theorem pieces_dotted (count : Nat) :
    pieces (dotted first rest count).bytes = dottedPieces first rest count :=
  pieces_joinPieces (List.cons_ne_nil _ _) fun piece member =>
    (solid_dottedPieces leading proper count piece member).2

/-- A dotted path holds no zero byte if the path without dots does not. -/
theorem text_dotted (count : Nat) (text : 0 ∉ (dotted first rest 0).bytes) :
    0 ∉ (dotted first rest count).bytes := by
  refine text_joinPieces fun piece member inside => ?_
  have alike : piece ∈ dottedPieces first rest 0 ∨ piece = Component.here.bytes := by
    unfold dottedPieces at member ⊢
    simp only [List.mem_cons, List.mem_append, List.replicate_zero, List.nil_append] at member ⊢
    rcases member with same | dot | name
    · exact .inl (.inl same)
    · exact .inr (List.eq_of_mem_replicate dot)
    · exact .inl (.inr name)
  rcases alike with there | rfl
  · rw [← pieces_dotted leading proper] at there
    exact text (mem_of_mem_pieces there inside)
  · exact absurd inside (by decide)

/-- Dots are no components. -/
theorem components_dotted (count : Nat) :
    (dotted first rest count).components = (first :: rest).map .entry := by
  have dots : (List.replicate count Component.here.bytes).filterMap componentOf? = [] := by
    rw [List.filterMap_replicate_of_none rfl]
  unfold dotted
  rw [components_joinPieces (fun piece member => (solid_dottedPieces leading proper count piece
    member).2)]
  · unfold dottedPieces
    rw [List.filterMap_cons_some (componentOf?_of_isName leading), List.filterMap_append, dots,
      List.nil_append, filterMap_componentOf? proper, List.map_cons]
  · intro piece start
    obtain rfl := Option.some.inj start
    exact leading.saying

omit leading proper in
/-- Each dot takes two bytes. -/
theorem length_dotted (filled : rest ≠ []) (count : Nat) :
    (dotted first rest count).bytes.length =
      2 * count + (dotted first rest 0).bytes.length := by
  have behind (count : Nat) : List.replicate count Component.here.bytes ++ rest ≠ [] := by
    simp [filled]
  have dots : (joinPieces (List.replicate count Component.here.bytes ++ rest)).length =
      2 * count + (joinPieces rest).length := by
    induction count with
    | zero => simp
    | succ count ih =>
      rw [List.replicate_succ, List.cons_append, joinPieces_cons (behind count),
        List.length_append, List.length_cons, ih]
      simp only [Component.bytes, List.length_cons, List.length_nil]
      omega
  unfold dotted dottedPieces
  rw [joinPieces_cons (behind count), joinPieces_cons (behind 0), List.length_append,
    List.length_append, List.length_cons, List.length_cons, dots]
  simp only [List.replicate_zero, List.nil_append]
  omega

end Dotted

end Path

namespace Replacement

section Dotted

variable {first above name : Bytes} {middle : List Bytes} {count : Nat} {files : FileSystem}
  {goal : Location} (leading : Path.IsName first)
  (proper : ∀ piece ∈ middle ++ [above], Path.IsName piece) (named : Path.IsName name)

include leading proper named

/-- The staging file for a dotted path has a path with as many dots. -/
theorem stagingPath_dotted : stagingPath (.dotted first (middle ++ [above] ++ [name]) count) =
    .dotted first (middle ++ [above] ++ [name ++ Utf8.encode suffix.toList]) count := by
  have pieces (last : Bytes) : Path.dottedPieces first (middle ++ [above] ++ [last]) count =
      (first :: (List.replicate count Component.here.bytes ++ middle)) ++ [above] ++ [last] := by
    unfold Path.dottedPieces
    simp only [List.append_assoc, List.cons_append]
  have all : ∀ piece ∈ middle ++ [above] ++ [name], Path.IsName piece := by
    intro piece member
    rcases List.mem_append.mp member with before | last
    · exact proper piece before
    · exact List.mem_singleton.mp last ▸ named
  have known : (Path.dotted first (middle ++ [above] ++ [name]) count).fileName? = some name := by
    have split : first :: (middle ++ [above] ++ [name]) = (first :: (middle ++ [above])) ++ [name] :=
      rfl
    unfold Path.fileName?
    rw [Path.components_dotted leading all, split, List.map_append, List.map_singleton,
      List.getLast?_concat]
  have solid := Path.solid_dottedPieces leading all count
  rw [stagingPath_of_fileName? known]
  unfold Path.dotted
  rw [pieces] at solid ⊢
  rw [pieces]
  refine Path.withFileName_joinPieces (fun piece member => solid piece ?_) ?_ ?_ named
    (not_mem_stagingName named.whole)
  · exact List.mem_append_left _ member
  · intro piece start
    obtain rfl := Option.some.inj start
    exact leading.saying
  · exact (proper above (by simp)).saying

/-- The path of the staging file for a dotted path is longer by twelve bytes. -/
theorem length_stagingPath_dotted :
    (stagingPath (.dotted first (middle ++ [above] ++ [name]) count)).bytes.length =
      (Path.dotted first (middle ++ [above] ++ [name]) count).bytes.length + 12 := by
  have longer (last : Bytes) :
      (Path.dotted first (middle ++ [above] ++ [last]) count).bytes.length =
        (Path.joinPieces (Path.dottedPieces first (middle ++ [above]) count)).length + 1 +
          last.length := by
    have pieces : Path.dottedPieces first (middle ++ [above] ++ [last]) count =
        Path.dottedPieces first (middle ++ [above]) count ++ [last] := by
      unfold Path.dottedPieces
      simp only [List.append_assoc, List.cons_append]
    have filled : Path.dottedPieces first (middle ++ [above]) count ≠ [] := List.cons_ne_nil _ _
    unfold Path.dotted
    rw [pieces, Path.joinPieces_concat filled, List.length_append, List.length_cons]
    omega
  have suffix : (Utf8.encode suffix.toList).length = 12 := rfl
  rw [stagingPath_dotted leading proper named, longer, longer, List.length_append, suffix]
  omega

end Dotted

end Replacement

namespace FileSystem

variable {first : Bytes} {rest : List Bytes} {count : Nat} {files : FileSystem} {goal : Location}

/-- A dotted path leads where the path without dots does, if it is not too long. -/
theorem resolve_dotted (leading : Path.IsName first) (proper : ∀ name ∈ rest, Path.IsName name)
    (filled : rest ≠ []) (found : files.resolve .kept (.dotted first rest 0) = .ok goal)
    (solid : files.tree.get? goal ≠ some .directory)
    (short : (Path.dotted first rest count).bytes.length ≤ pathLimit) :
    files.resolve .kept (.dotted first rest count) = .ok goal := by
  obtain ⟨written, -⟩ := resolve_eq_ok_iff.mp found
  have text : 0 ∉ (Path.dotted first rest count).bytes :=
    Path.text_dotted leading proper count (by simpa using written.text)
  have present : (Path.dotted first rest count).bytes ≠ [] := by
    intro empty
    have length : (Path.dotted first rest count).bytes.length =
        2 * count + (Path.dotted first rest 0).bytes.length := Path.length_dotted filled count
    rw [empty, List.length_nil] at length
    exact written.present (List.length_eq_zero_iff.mp (by omega))
  refine resolve_of_components ?_ found solid ⟨by simpa using text, present, by omega⟩ ?_
  · rw [Path.components_dotted leading proper, Path.components_dotted leading proper]
  · intro name last
    rw [names_getLast?, Path.pieces_dotted leading proper, Option.mem_def] at last
    unfold Path.dottedPieces at last
    rw [List.getLast?_cons, List.getLast?_append, List.getLast?_eq_some_getLast filled] at last
    obtain rfl := Option.some.inj last
    exact (proper _ (List.getLast_mem filled)).saying

end FileSystem

namespace Exclusion

/-- A path with a dot behind its first name matches the pattern for all such paths. -/
theorem matchesPath_dotted {first : Text} {rest : List Bytes} (filled : rest ≠ [])
    (texts : ∀ name ∈ rest, Path.IsText name) (source : String) (count : Nat) :
    matchesPath ⟨source, (first ++ "/./".toList).map .literal ++ [.anyDirectories]⟩
      (.dotted (Utf8.encode first) rest (count + 1)) = true := by
  have written : Path.IsText
      (Path.joinPieces (List.replicate count Component.here.bytes ++ rest)) := by
    rw [Path.isText_joinPieces]
    intro piece member
    rcases List.mem_append.mp member with dot | name
    · exact ⟨['.'], (List.eq_of_mem_replicate dot).symm⟩
    · exact texts piece name
  obtain ⟨text, behind⟩ := written
  have bytes : (Path.dotted (Utf8.encode first) rest (count + 1)).bytes =
      Utf8.encode (first ++ "/./".toList ++ text) := by
    unfold Path.dotted Path.dottedPieces
    dsimp only
    rw [List.replicate_succ, List.cons_append, Path.joinPieces_cons (List.cons_ne_nil _ _),
      Path.joinPieces_cons (by simp [filled]), ← behind, Utf8.encode_append, Utf8.encode_append,
      List.append_assoc]
    rfl
  unfold matchesPath
  rw [Utf8.decode_eq_ok_iff.mpr bytes.symm]
  unfold Pattern.matchesText
  rw [decide_eq_true_eq]
  exact (Pattern.matchTokens_literals _ text _).trans (Pattern.matchTokens_anyDirectories text)

end Exclusion

end LicenseHeader
