import LicenseHeader.Candidate
import LicenseHeader.Proofs.Exclude.Wildcards
import LicenseHeader.Proofs.File.Spelling

/-!
# Excluded directories

The pattern for a directory is its names with slashes between them and two stars behind the last
slash. It matches the texts that go on behind the directory (`Pattern.matchesText_directory_iff`). A
path that is no text is matched by nothing, so that of the plain paths strictly below the directory
those are excluded all of whose names are text, and no others are
(`Exclusion.excluded_directory_iff`).
-/

namespace LicenseHeader

/-- A relative path is left as it is below an absolute directory. -/
theorem Path.belowOrSelf_of_relative {root path : Path} (absolute : root.isAbsolute = true)
    (relative : path.isAbsolute = false) : path.belowOrSelf root = path := by
  cases below : path.below? root with
  | none => exact belowOrSelf_of_elsewhere below
  | some rest =>
    have lies := List.mem_append_left rest.components ((isAbsolute_iff_root root).mp absolute)
    rw [← components_below below, ← isAbsolute_iff_root, relative] at lies
    contradiction

/-- The last name of a path with a style is text. -/
theorem Style.isText_of_ofPath? {path : Path} {name : Bytes} (styled : ofPath? path ≠ none)
    (last : path.components.getLast? = some (.entry name)) : Path.IsText name := by
  obtain ⟨style, found⟩ := Option.ne_none_iff_exists'.mp styled
  have named : path.fileName? = some name := by
    unfold Path.fileName?
    rw [last]
  unfold ofPath? at found
  rw [named, Option.bind_eq_bind, Option.bind_some] at found
  cases read : Utf8.decode name with
  | error fault =>
    rw [read] at found
    contradiction
  | ok text => exact ⟨text, Utf8.decode_eq_ok_iff.mp read⟩

namespace Pattern

/-- Whether a name of a directory stands for itself in a pattern. -/
structure IsLiteral (name : Text) : Prop where
  /-- It is a name. -/
  named : Path.IsName (Utf8.encode name)
  /-- None of its characters stands for something else. -/
  plain : ∀ c ∈ name, c ∉ wildcards

/-- The names that lead to a directory with slashes between them. -/
def route (dir : List Text) : Text := List.intercalate ['/'] dir

/-- The pattern for all that is in a directory. -/
def directory (dir : List Text) : Pattern where
  source := String.ofList (route dir ++ "/**".toList)
  tokens := (route dir ++ ['/']).map .literal ++ [.anyDirectories]

/-- Between the first two names stands a slash. -/
theorem route_cons_cons (name second : Text) (rest : List Text) :
    route (name :: second :: rest) = name ++ '/' :: route (second :: rest) := by
  simp [route, List.intercalate_cons_cons]

/-- The bytes of a route are those of the names with slashes between them. -/
theorem encode_route (dir : List Text) :
    Utf8.encode (route dir) = Path.joinPieces (dir.map Utf8.encode) := by
  induction dir with
  | nil => rfl
  | cons name more ih =>
    cases more with
    | nil => simp [route, Path.joinPieces]
    | cons second rest =>
      rw [route_cons_cons, Utf8.encode_append, Path.encode_slash, ih]
      rfl

/-- The route of literal names has no wildcards. -/
theorem not_mem_wildcards_of_route {dir : List Text} (literal : ∀ name ∈ dir, IsLiteral name) :
    ∀ c ∈ route dir, c ∉ wildcards := by
  induction dir with
  | nil => simp [route]
  | cons name more ih =>
    obtain ⟨first, others⟩ := List.forall_mem_cons.mp literal
    cases more with
    | nil => simpa [route] using first.plain
    | cons second rest =>
      intro c member
      rw [route_cons_cons, List.mem_append, List.mem_cons] at member
      rcases member with front | rfl | back
      · exact first.plain c front
      · decide
      · exact ih others c back

/-- Characters that are no wildcards are read as themselves. -/
theorem tokensFrom_literals {text : Text} (plain : ∀ c ∈ text, c ∉ wildcards) (position : Nat)
    (previous : Option Char) (tokens : List PatternToken) (rest : Text) :
    tokensFrom position previous tokens (text ++ rest) =
      tokensFrom (position + text.length) (text.getLast?.or previous)
        ((text.map .literal).reverse ++ tokens) rest := by
  induction text generalizing position previous tokens with
  | nil => rfl
  | cons c more ih =>
    obtain ⟨first, others⟩ := List.forall_mem_cons.mp plain
    obtain ⟨one, any, bracket⟩ : c ≠ '?' ∧ c ≠ '*' ∧ c ≠ '[' := by
      simpa [wildcards] using first
    have last : more.getLast?.or (some c) = (c :: more).getLast?.or previous := by
      rw [List.getLast?_cons]
      cases more.getLast? <;> rfl
    rw [List.cons_append, tokensFrom, if_neg one, if_neg any, if_neg bracket, ih others, last,
      List.map_cons, List.reverse_cons, List.append_assoc, List.length_cons,
      Nat.add_right_comm, Nat.add_assoc]
    rfl

/-- Two stars behind a slash at the end of a pattern are read as any directories. -/
theorem tokensFrom_stars (position : Nat) (tokens : List PatternToken) :
    tokensFrom position (some '/') tokens ['*', '*'] = .ok (pushDirectories tokens).reverse := by
  rw [tokensFrom]
  simp only [Char.reduceEq, ↓reduceIte, List.head?_cons, ne_eq, not_true_eq_false, decide_false,
    Bool.and_false, List.drop_one, List.tail_cons, List.head?_nil, reduceCtorEq, Bool.false_eq_true]
  split
  next read => contradiction
  next more read =>
    obtain rfl := Option.some.inj read
    rw [tokensFrom]

/-- The pattern for a directory of literal names is read. -/
theorem parse_directory {dir : List Text} (literal : ∀ name ∈ dir, IsLiteral name) :
    parse (directory dir).source = .ok (directory dir) := by
  refine parse_eq_ok_iff.mpr ⟨rfl, ?_⟩
  have plain : ∀ c ∈ route dir ++ ['/'], c ∉ wildcards := by
    intro c member
    rcases List.mem_append.mp member with front | slash
    · exact not_mem_wildcards_of_route literal c front
    · obtain rfl := List.mem_singleton.mp slash
      decide
  have divided : (directory dir).source.toList = (route dir ++ ['/']) ++ ['*', '*'] := by
    unfold directory
    rw [String.toList_ofList, List.append_assoc]
    rfl
  have behind : (route dir ++ ['/']).getLast?.or none = some '/' := by
    rw [List.getLast?_concat]
    rfl
  have pushed : pushDirectories (((route dir ++ ['/']).map .literal).reverse ++ []) =
      .anyDirectories :: ((route dir ++ ['/']).map .literal).reverse := by
    rw [List.append_nil, List.map_append, List.reverse_append]
    unfold pushDirectories
    simp
  rw [divided, tokensFrom_literals plain, behind, tokensFrom_stars, pushed, List.reverse_cons,
    List.reverse_reverse]
  rfl

/-- Literal characters are matched by texts that start with them. -/
theorem matchTokens_literals_iff (text other : Text) (tokens : List PatternToken) :
    matchTokens (text.map .literal ++ tokens) other = .matched ↔
      ∃ rest, other = text ++ rest ∧ matchTokens tokens rest = .matched := by
  constructor
  · intro matched
    induction text generalizing other with
    | nil => exact ⟨other, rfl, matched⟩
    | cons c more ih =>
      cases other with
      | nil => contradiction
      | cons d others =>
        rw [List.map_cons, List.cons_append, matchTokens] at matched
        · split at matched
          next same =>
            obtain ⟨rest, rfl, behind⟩ := ih others matched
            exact ⟨rest, by rw [of_decide_eq_true same]; rfl, behind⟩
          · contradiction
        · simp
        · simp
  · rintro ⟨rest, rfl, behind⟩
    rw [matchTokens_literals, behind]

/-- The pattern for a directory matches the texts that go on behind it. -/
theorem matchesText_directory_iff (dir : List Text) (text : Text) :
    (directory dir).matchesText text = true ↔ ∃ rest, text = route dir ++ '/' :: rest := by
  unfold matchesText directory
  rw [decide_eq_true_eq, matchTokens_literals_iff]
  simp only [matchTokens_anyDirectories, and_true, List.append_assoc, List.singleton_append]

end Pattern

namespace Exclusion

open Pattern (IsLiteral directory route)

variable {root path : Path} {dir : List Text} {names : Location}

/-- All that is in a directory below the root excluded. -/
def ofDirectory (root : Path) (dir : List Text) : Exclusion := ⟨root, [directory dir]⟩

/-- Whether the components of a path lead through a directory below the root. -/
def Inside (root : Path) (dir : List Text) (path : Path) : Prop :=
  ∃ more, more ≠ [] ∧
    path.components = root.components ++ (dir.map Utf8.encode).map .entry ++ more

/-- The exclusion of a directory is that of its pattern. -/
theorem ofSources_directory (literal : ∀ name ∈ dir, IsLiteral name) (root : Path) :
    ofSources root [(directory dir).source] = .ok (ofDirectory root dir) :=
  ofSources_single (Pattern.parse_directory literal) root

/-- A path is excluded with a directory exactly when the text that is left of it goes on behind the
directory. -/
theorem verdict_ofDirectory (root : Path) (dir : List Text) (path : Path) :
    ((ofDirectory root dir).verdict path = some (.excluded (directory dir).source) ↔
      ∃ rest, textBelow? root path = some (route dir ++ '/' :: rest)) ∧
    ((ofDirectory root dir).verdict path = none ↔
      ¬ ∃ rest, textBelow? root path = some (route dir ++ '/' :: rest)) := by
  have matched : matchesPath (directory dir) (path.belowOrSelf root) = true ↔
      ∃ rest, textBelow? root path = some (route dir ++ '/' :: rest) := by
    rw [matchesPath_belowOrSelf, Option.any_eq_true]
    constructor
    · rintro ⟨text, left, whole⟩
      obtain ⟨rest, rfl⟩ := (Pattern.matchesText_directory_iff dir text).mp whole
      exact ⟨rest, left⟩
    · rintro ⟨rest, left⟩
      exact ⟨_, left, (Pattern.matchesText_directory_iff dir _).mpr ⟨rest, rfl⟩⟩
  unfold verdict ofDirectory
  rw [← matched]
  cases answer : matchesPath (directory dir) (path.belowOrSelf root) <;> simp [answer]

/-- What is left of a path is the bytes of a text behind a directory exactly when its bytes go on so
behind those of the directory. -/
theorem textBelow?_eq_route {rest : Text} :
    textBelow? root path = some (route dir ++ '/' :: rest) ↔ (path.belowOrSelf root).bytes =
      Path.joinPieces (dir.map Utf8.encode) ++ Path.slash :: Utf8.encode rest := by
  rw [textBelow?_eq_some_iff, Utf8.encode_append, Pattern.encode_route, Path.encode_slash]
  exact eq_comm

/-- A path that leaves names below a directory is excluded with it exactly when these are text. -/
theorem verdict_of_names (filled : dir ≠ []) (present : names ≠ [])
    (left : path.belowOrSelf root = ⟨Path.joinPieces (dir.map Utf8.encode ++ names)⟩) :
    (ofDirectory root dir).verdict path = some (.excluded (directory dir).source) ↔
      ∀ name ∈ names, Path.IsText name := by
  have bytes : (path.belowOrSelf root).bytes =
      Path.joinPieces (dir.map Utf8.encode) ++ Path.slash :: Path.joinPieces names := by
    rw [left, Path.joinPieces_append (by simpa using filled) present]
  rw [(verdict_ofDirectory root dir path).1, ← Path.isText_joinPieces]
  simp only [textBelow?_eq_route, bytes, List.append_cancel_left_eq, List.cons.injEq, true_and]
  exact exists_congr fun rest => eq_comm

/-- An absolute path that is excluded with a directory lies strictly below it. -/
theorem inside_of_textBelow? {rest : Text} (absolute : root.isAbsolute = true)
    (also : path.isAbsolute = true) (filled : dir ≠ []) (literal : ∀ name ∈ dir, IsLiteral name)
    (left : textBelow? root path = some (route dir ++ '/' :: rest)) : Inside root dir path := by
  have proper : ∀ name ∈ dir.map Utf8.encode, Path.IsName name := by
    simpa using fun name member => (literal name member).named
  have bytes := textBelow?_eq_route.mp left
  have parts : (path.belowOrSelf root).components = (dir.map Utf8.encode).map .entry ++
      (Path.pieces (Utf8.encode rest)).filterMap Path.componentOf? := by
    rw [← Path.components_joinPieces_slash (by simpa using filled) proper, ← bytes]
  cases below : path.below? root with
  | some behind =>
    rw [Path.belowOrSelf_of_below below] at bytes parts
    have start := Path.components_ne_nil absolute
    -- What is left ends with a piece that says something, and this lies behind the directory.
    obtain ⟨piece, last⟩ := Path.exists_last (Utf8.encode rest)
    have ends : (Path.pieces behind.bytes).getLast? = some piece := by
      rw [bytes, Path.pieces_append_slash, List.getLast?_append, last]
      rfl
    have saying := Path.not_isIdle_of_below below start (by simp [bytes]) ends
    obtain ⟨component, means⟩ := Path.exists_component saying
    have member := List.mem_filterMap.mpr ⟨piece, List.mem_of_getLast? last, means⟩
    refine ⟨_, List.ne_nil_of_mem member, ?_⟩
    rw [Path.components_below below, parts, List.append_assoc]
  | none =>
    obtain ⟨name, more, rfl⟩ := List.exists_cons_of_ne_nil filled
    rw [Path.belowOrSelf_of_elsewhere below, Path.components_of_isAbsolute also] at parts
    exact absurd (List.cons.inj parts).1 nofun

/-- What is left of a plain path to names in a directory is the directory and these. -/
theorem belowOrSelf_of_isPlain (plain : path.IsPlain root)
    (leads : path.components =
      root.components ++ (dir.map Utf8.encode).map .entry ++ names.map .entry) :
    path.belowOrSelf root = ⟨Path.joinPieces (dir.map Utf8.encode ++ names)⟩ := by
  obtain ⟨others, proper, below⟩ := plain
  have same := (Path.components_of_below proper below).symm.trans leads
  rw [List.append_assoc, ← List.map_append] at same
  have entries : Function.Injective Component.entry := fun _ _ => Component.entry.inj
  obtain rfl := List.map_injective_iff.mpr entries (List.append_cancel_left same)
  exact Path.belowOrSelf_of_below below

/-- The pattern for a directory of literal names is one. With it a plain path strictly below the
directory is excluded exactly when the names that lead there from the directory are text, which for
one with a style are all but the last. No absolute path is excluded that does not lie strictly below
the directory, and a relative path is matched as it is written. -/
theorem excluded_directory_iff (absolute : root.isAbsolute = true) (filled : dir ≠ [])
    (literal : ∀ name ∈ dir, IsLiteral name) :
    ∃ exclusion, ofSources root [(directory dir).source] = .ok exclusion ∧
      (∀ path names, names ≠ [] → path.IsPlain root →
        path.components =
            root.components ++ (dir.map Utf8.encode).map .entry ++ names.map .entry →
          (exclusion.verdict path = some (.excluded (directory dir).source) ↔
              ∀ name ∈ names, Path.IsText name) ∧
            (Style.ofPath? path ≠ none →
              (exclusion.verdict path = some (.excluded (directory dir).source) ↔
                ∀ name ∈ names.dropLast, Path.IsText name))) ∧
      (∀ path, path.isAbsolute = true → ¬ Inside root dir path → exclusion.verdict path = none) ∧
      ∀ path, path.isAbsolute = false →
        (exclusion.verdict path = some (.excluded (directory dir).source) ↔
          ∃ rest, path.bytes = Utf8.encode (route dir ++ '/' :: rest)) := by
  refine ⟨ofDirectory root dir, ofSources_directory literal root, ?_, ?_, ?_⟩
  · intro path names present plain leads
    have left := belowOrSelf_of_isPlain plain leads
    have whole := verdict_of_names filled present left
    refine ⟨whole, fun styled => whole.trans ?_⟩
    have divided := List.dropLast_append_getLast present
    have last : Path.IsText (names.getLast present) := by
      refine Style.isText_of_ofPath? styled ?_
      rw [leads, List.getLast?_append, List.getLast?_map, List.getLast?_eq_some_getLast present]
      rfl
    constructor
    · exact fun all name member => all name (List.mem_of_mem_dropLast member)
    · intro front name member
      rw [← divided, List.mem_append, List.mem_singleton] at member
      rcases member with before | rfl
      · exact front name before
      · exact last
  · intro path also outside
    refine (verdict_ofDirectory root dir path).2.mpr ?_
    rintro ⟨rest, left⟩
    exact outside (inside_of_textBelow? absolute also filled literal left)
  · intro path relative
    rw [(verdict_ofDirectory root dir path).1]
    simp only [textBelow?_eq_some_iff, Path.belowOrSelf_of_relative absolute relative]
    exact exists_congr fun rest => eq_comm

/-- A file below the excluded directory in a directory with a name that is no text. -/
def undecoded : Path :=
  ⟨Utf8.encode "/w/vendor/".toList ++ 0xFF :: Utf8.encode "/a.c".toList⟩

/-- The name of the excluded directory is literal. -/
theorem isLiteral_vendor : ∀ name ∈ ["vendor".toList], IsLiteral name := by
  intro name member
  obtain rfl := List.mem_singleton.mp member
  exact ⟨by decide, by simp [Pattern.wildcards]⟩

/-- A plain path to a C file strictly below an excluded directory is not excluded. -/
theorem verdict_undecoded :
    (directory ["vendor".toList]).source = "vendor/**" ∧
      (∀ name ∈ ["vendor".toList], IsLiteral name) ∧
      ofSources (.ofString "/w") ["vendor/**"] = .ok vendored ∧
      undecoded.IsPlain (.ofString "/w") ∧
      undecoded.components = (Path.ofString "/w").components ++
        (["vendor".toList].map Utf8.encode).map .entry ++
          [.entry [0xFF], .entry (Utf8.encode "a.c".toList)] ∧
      Style.ofPath? undecoded = some .block ∧ vendored.verdict undecoded = none := by
  refine ⟨by decide, isLiteral_vendor, ofSources_vendored, ?_, by cbv, by cbv, by cbv⟩
  exact ⟨[Utf8.encode "vendor".toList, [0xFF], Utf8.encode "a.c".toList], by decide, by cbv⟩

/-- A file at any depth below the directory is excluded, and one beside the directory is not. -/
theorem excluded_directory_iff_vendor :
    (Path.ofString "/w").isAbsolute = true ∧ (∀ name ∈ ["vendor".toList], IsLiteral name) ∧
      ∃ exclusion, ofSources (.ofString "/w") ["vendor/**"] = .ok exclusion ∧
        exclusion.verdict (.ofString "/w/vendor/x/a.c") = some (.excluded "vendor/**") ∧
        exclusion.verdict (.ofString "/w/vendor.c") = none := by
  have absolute : (Path.ofString "/w").isAbsolute = true := by cbv
  have source : (directory ["vendor".toList]).source = "vendor/**" := by decide
  obtain ⟨exclusion, read, below, outside, -⟩ :=
    excluded_directory_iff absolute (List.cons_ne_nil _ _) isLiteral_vendor
  rw [source] at read below
  refine ⟨absolute, isLiteral_vendor, exclusion, read, ?_, ?_⟩
  · have plain : (Path.ofString "/w/vendor/x/a.c").IsPlain (.ofString "/w") :=
      ⟨["vendor", "x", "a.c"].map (Utf8.encode ·.toList), by decide, by cbv⟩
    refine (below _ (["x", "a.c"].map (Utf8.encode ·.toList)) ?_ plain (by cbv)).1.mpr ?_
    · exact List.cons_ne_nil _ _
    · simp [Path.IsText]
  · refine outside _ (by cbv) ?_
    rintro ⟨more, -, leads⟩
    have names : (Path.ofString "/w/vendor.c").components =
        [.root, .entry (Utf8.encode "w".toList), .entry (Utf8.encode "vendor.c".toList)] := by
      cbv
    have start : (Path.ofString "/w").components =
        [.root, .entry (Utf8.encode "w".toList)] := by
      cbv
    rw [names, start] at leads
    have first := (List.cons.inj (List.cons.inj (List.cons.inj leads).2).2).1
    exact absurd first (by decide)

end Exclusion

end LicenseHeader
