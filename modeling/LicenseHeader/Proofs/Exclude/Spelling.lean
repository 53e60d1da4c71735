import LicenseHeader.Proofs.Batch.Selection
import LicenseHeader.Proofs.Path.Below
import LicenseHeader.Proofs.Text.Utf8
import Mathlib

/-!
# Exclusion and the spelling of paths

Patterns are matched with the text that is left of a path, and for every text there is a pattern
that matches no other (`Pattern.exists_exact`). So two spellings of a location are excluded alike by
all patterns exactly when the same text is left of them, which the plain ones have in common with
each other and with no other spelling (`Exclusion.verdict_eq_iff`).
-/

namespace LicenseHeader

namespace Pattern

/-- The characters that stand for something else in a pattern. -/
def wildcards : List Char := ['?', '*', '[']

/-- The pattern for one text: every character stands for itself, a wildcard in brackets. -/
def quote (text : Text) : Text :=
  text.flatMap fun c => if c ∈ wildcards then ['[', c, ']'] else [c]

/-- The token for one character. -/
def exactly (c : Char) : PatternToken :=
  if c ∈ wildcards then .within [⟨c, c⟩] else .literal c

/-- The token for one character matches this and no other. -/
theorem accepts_exactly (c d : Char) : PatternToken.accepts d (exactly c) = decide (d = c) := by
  unfold exactly
  split
  next wild =>
    have solid : c ≠ '/' := by
      rintro rfl
      exact absurd wild (by decide)
    have inside : (CharRange.mk c c).contains d = decide (d = c) := by
      unfold CharRange.contains
      rw [Bool.eq_iff_iff, Bool.and_eq_true, decide_eq_true_eq, decide_eq_true_eq,
        decide_eq_true_eq]
      constructor
      · intro ⟨low, high⟩
        exact Char.le_antisymm high low
      · rintro rfl
        exact ⟨Char.le_refl d, Char.le_refl d⟩
    simp only [PatternToken.accepts, List.any_cons, List.any_nil, Bool.or_false, inside]
    by_cases same : d = c
    · simp [same, solid]
    · simp [same]
  next => rfl

/-- Where no text is left, the token for a character runs out of it. -/
theorem matchTokens_exactly_nil (c : Char) (tokens : List PatternToken) :
    matchTokens (exactly c :: tokens) [] = .exhausted := by
  unfold exactly
  split <;> rfl

/-- The token for a character takes this character and no other. -/
theorem matchTokens_exactly_cons (c d : Char) (tokens : List PatternToken) (rest : Text) :
    matchTokens (exactly c :: tokens) (d :: rest) =
      if d = c then matchTokens tokens rest else .mismatch := by
  have taken : matchTokens (exactly c :: tokens) (d :: rest) =
      if PatternToken.accepts d (exactly c) then matchTokens tokens rest else .mismatch := by
    unfold exactly
    split <;> rfl
  rw [taken, accepts_exactly]
  simp

/-- The tokens for the characters of a text match this and no other. -/
theorem matchTokens_exactly (text other : Text) :
    matchTokens (text.map exactly) other = .matched ↔ other = text := by
  induction text generalizing other with
  | nil => cases other <;> simp [matchTokens]
  | cons c more ih =>
    cases other with
    | nil => simp [matchTokens_exactly_nil]
    | cons d rest =>
      rw [List.map_cons, matchTokens_exactly_cons]
      by_cases same : d = c
      · simp [same, ih]
      · simp [same]

/-- A quoted text is read as the tokens for its characters. -/
theorem tokensFrom_quote (text : Text) (position : Nat) (previous : Option Char)
    (tokens : List PatternToken) :
    tokensFrom position previous tokens (quote text) =
      .ok (tokens.reverse ++ text.map exactly) := by
  induction text generalizing position previous tokens with
  | nil =>
    rw [quote, List.flatMap_nil, tokensFrom, List.map_nil, List.append_nil]
  | cons c more ih =>
    have front : quote (c :: more) =
        (if c ∈ wildcards then ['[', c, ']'] else [c]) ++ quote more := rfl
    have behind (token : PatternToken) : (token :: tokens).reverse ++ more.map exactly =
        tokens.reverse ++ token :: more.map exactly := by
      rw [List.reverse_cons, List.append_assoc, List.singleton_append]
    rw [front, List.map_cons]
    unfold exactly
    by_cases wild : c ∈ wildcards
    · -- A wildcard in brackets is read as a set of one character.
      have set : readSet? (c :: ']' :: quote more) = some (.within [⟨c, c⟩], quote more) := by
        have known : c = '?' ∨ c = '*' ∨ c = '[' := by simpa [wildcards] using wild
        rcases known with rfl | rfl | rfl <;>
        · simp [readSet?, splitSet?, ranges]
      rw [if_pos wild, if_pos wild, List.cons_append, List.cons_append, List.cons_append,
        List.nil_append, tokensFrom]
      simp only [Char.reduceEq, ↓reduceIte]
      split
      next read => rw [set] at read; contradiction
      next token rest read =>
        rw [set] at read
        obtain ⟨rfl, rfl⟩ := Prod.mk.inj (Option.some.inj read)
        rw [ih, behind]
        rfl
    · obtain ⟨one, any, bracket⟩ : c ≠ '?' ∧ c ≠ '*' ∧ c ≠ '[' := by
        simpa [wildcards] using wild
      rw [if_neg wild, if_neg wild, List.singleton_append, tokensFrom]
      rw [if_neg one, if_neg any, if_neg bracket, ih, behind]
      rfl

/-- For every text there is a pattern that matches this and no other. -/
theorem exists_exact (text : Text) : ∃ source pattern, parse source = .ok pattern ∧
    ∀ other, pattern.matchesText other = true ↔ other = text := by
  refine ⟨String.ofList (quote text), ⟨String.ofList (quote text), text.map exactly⟩, ?_, ?_⟩
  · have read := tokensFrom_quote text 0 none []
    unfold parse
    rw [String.toList_ofList, read]
    rfl
  · intro other
    unfold matchesText
    rw [decide_eq_true_eq]
    exact matchTokens_exactly text other

/-- Literal characters are matched by themselves. -/
theorem matchTokens_literals (text rest : Text) (tokens : List PatternToken) :
    matchTokens (text.map .literal ++ tokens) (text ++ rest) = matchTokens tokens rest := by
  induction text with
  | nil => rfl
  | cons c more ih =>
    rw [List.map_cons, List.cons_append, List.cons_append, matchTokens]
    · simp [PatternToken.accepts, ih]
    · simp
    · simp

/-- Any directories at the end of a pattern match any text. -/
theorem matchTokens_anyDirectories (text : Text) :
    matchTokens [.anyDirectories] text = .matched := by
  have taken (text : Text) : matchDirectories (matchTokens []) text = .matched := by
    induction text with
    | nil => rfl
    | cons c more ih =>
      rw [matchDirectories]
      split
      · cases more with
        | nil => rfl
        | cons d rest => exact ih
      · exact ih
  cases text with
  | nil => rfl
  | cons c more => exact taken (c :: more)

end Pattern

namespace Exclusion

variable {root path other : Path} {exclusion : Exclusion}

/-- The text with which patterns are matched, if what is left of a path is text. -/
def textBelow? (root path : Path) : Option Text :=
  (Utf8.decode (path.belowOrSelf root).bytes).toOption

/-- The text that is left of a path is its bytes read as text. -/
theorem textBelow?_eq_some_iff {text : Text} :
    textBelow? root path = some text ↔ Utf8.encode text = (path.belowOrSelf root).bytes := by
  unfold textBelow?
  rw [← Utf8.decode_eq_ok_iff]
  cases Utf8.decode (path.belowOrSelf root).bytes <;> simp [Except.toOption]

/-- Whether a pattern matches the location with the given names below the directory. -/
def Covers (exclusion : Exclusion) (names : Location) : Prop :=
  ∃ pattern ∈ exclusion.patterns, matchesPath pattern ⟨Path.joinPieces names⟩ = true

/-- A pattern matches a path exactly when it matches its text. -/
theorem matchesPath_belowOrSelf (pattern : Pattern) (root path : Path) :
    matchesPath pattern (path.belowOrSelf root) =
      (textBelow? root path).any (pattern.matchesText ·) := by
  unfold matchesPath textBelow?
  cases Utf8.decode (path.belowOrSelf root).bytes with
  | error fault => rfl
  | ok text => rfl

/-- The verdict depends on nothing but the text that is left. -/
theorem verdict_of_textBelow? (same : textBelow? exclusion.root path =
    textBelow? exclusion.root other) : exclusion.verdict path = exclusion.verdict other := by
  unfold verdict
  simp only [matchesPath_belowOrSelf, same]

/-- An exclusion with one pattern. -/
theorem ofSources_single {source : String} {pattern : Pattern}
    (read : Pattern.parse source = .ok pattern) (root : Path) :
    ofSources root [source] = .ok ⟨root, [pattern]⟩ := by
  unfold ofSources parsePatterns
  rw [read]
  rfl

/-- An exclusion that is read holds the patterns that are read, below the root. -/
theorem exists_patterns {sources : List String} (read : ofSources root sources = .ok exclusion) :
    ∃ patterns, parsePatterns sources = .ok patterns ∧ exclusion = ⟨root, patterns⟩ := by
  unfold ofSources at read
  cases parsed : parsePatterns sources with
  | error error =>
    rw [parsed] at read
    contradiction
  | ok patterns =>
    rw [parsed] at read
    exact ⟨patterns, rfl, (Except.ok.inj read).symm⟩

/-- The patterns that are read are those that the sources write. -/
theorem mem_parsePatterns {sources : List String} {patterns : List Pattern}
    (parsed : parsePatterns sources = .ok patterns) (pattern : Pattern) :
    pattern ∈ patterns ↔ ∃ source ∈ sources, Pattern.parse source = .ok pattern := by
  induction sources generalizing patterns with
  | nil =>
    obtain rfl := Except.ok.inj parsed
    simp
  | cons source rest ih =>
    unfold parsePatterns at parsed
    cases first : Pattern.parse source with
    | error cause =>
      rw [first] at parsed
      contradiction
    | ok leading =>
      rw [first] at parsed
      cases others : parsePatterns rest with
      | error error =>
        rw [others] at parsed
        contradiction
      | ok behind =>
        rw [others] at parsed
        obtain rfl := Except.ok.inj parsed
        simp only [List.mem_cons, exists_eq_or_imp, first, Except.ok.injEq, ih others,
          eq_comm (a := leading)]

/-- A path on which all verdicts are those on another has its text. -/
theorem textBelow?_of_verdict {text : Text} (left : textBelow? root path = some text)
    (agree : ∀ sources exclusion, ofSources root sources = .ok exclusion →
      exclusion.verdict path = exclusion.verdict other) : textBelow? root other = some text := by
  obtain ⟨source, pattern, read, alone⟩ := Pattern.exists_exact text
  have verdicts := agree [source] ⟨root, [pattern]⟩ (ofSources_single read root)
  have matched : (textBelow? root path).any (pattern.matchesText ·) = true := by
    rw [left]
    exact (alone text).mpr rfl
  unfold verdict at verdicts
  simp only [matchesPath_belowOrSelf, matched, List.find?_cons, Option.map_some] at verdicts
  cases also : textBelow? root other with
  | none =>
    rw [also] at verdicts
    contradiction
  | some there =>
    rw [also] at verdicts
    cases same : pattern.matchesText there with
    | true => rw [(alone there).mp same]
    | false =>
      rw [Option.any_some, same] at verdicts
      contradiction

/-- All verdicts on two paths are the same exactly when the same text is left of them. -/
theorem verdicts_eq_iff : (∀ sources exclusion, ofSources root sources = .ok exclusion →
    exclusion.verdict path = exclusion.verdict other) ↔
      textBelow? root path = textBelow? root other := by
  constructor
  · intro agree
    cases left : textBelow? root path with
    | some text => exact (textBelow?_of_verdict left agree).symm
    | none =>
      cases also : textBelow? root other with
      | none => rfl
      | some text =>
        have reversed := textBelow?_of_verdict also fun sources exclusion made =>
          (agree sources exclusion made).symm
        rw [left] at reversed
        contradiction
  · intro same sources exclusion made
    obtain ⟨patterns, -, rfl⟩ := exists_patterns made
    exact verdict_of_textBelow? same

/-- The same text is left of two paths exactly when the same bytes are, if these are text. -/
theorem textBelow?_eq_iff (text : (textBelow? root path).isSome = true) :
    textBelow? root path = textBelow? root other ↔
      path.belowOrSelf root = other.belowOrSelf root := by
  obtain ⟨left, found⟩ := Option.isSome_iff_exists.mp text
  constructor
  · intro same
    have bytes := textBelow?_eq_some_iff.mp found
    have also := textBelow?_eq_some_iff.mp (same ▸ found)
    exact congrArg Path.mk (bytes.symm.trans also)
  · intro same
    unfold textBelow?
    rw [same]

/-- A plain path is excluded when its location is matched. -/
theorem verdict_of_covers {names : Location} (absolute : path.isAbsolute = true)
    (plain : path.IsPlain exclusion.root)
    (leads : path.location = exclusion.root.location ++ names) (covers : exclusion.Covers names) :
    exclusion.verdict path ≠ none := by
  obtain ⟨pattern, member, matched⟩ := covers
  rw [← (Path.isPlain_iff absolute leads).mp plain] at matched
  intro passed
  exact List.find?_eq_none.mp (Option.map_eq_none_iff.mp passed) pattern member matched

/-- Two spellings of a location are excluded alike by all patterns exactly when the same text is
left of them below the directory. That is so for plain spellings, and of two spellings of which one
is plain the other has to be. A file is no target under a plain path when a pattern matches its
location. -/
theorem verdict_eq_iff (absolute : path.isAbsolute = true) (also : other.isAbsolute = true)
    (same : path.location = other.location) :
    ((∀ sources exclusion, ofSources root sources = .ok exclusion →
        exclusion.verdict path = exclusion.verdict other) ↔
      textBelow? root path = textBelow? root other) ∧
    (path.IsPlain root → (textBelow? root path).isSome = true →
      (textBelow? root path = textBelow? root other ↔ other.IsPlain root)) ∧
    ∀ exclusion names, exclusion.root = root → path.IsPlain root →
      path.location = root.location ++ names → exclusion.Covers names →
        ∀ files paths, ∀ c ∈ (Selection.ofPaths files exclusion paths).targets, c.path ≠ path := by
  refine ⟨verdicts_eq_iff, ?_, ?_⟩
  · intro plain text
    rw [textBelow?_eq_iff text]
    exact Path.belowOrSelf_eq_iff absolute also same plain
  · rintro exclusion names rfl plain leads covers files paths c target rfl
    obtain ⟨-, -, chosen⟩ := Selection.of_mem_targets target
    unfold SkipReason.of? at chosen
    cases kind : SkipReason.ofKind? files c.path with
    | some reason =>
      rw [kind] at chosen
      contradiction
    | none =>
      rw [kind] at chosen
      exact verdict_of_covers absolute plain leads covers chosen

/-- All that is in one directory excluded. -/
def vendored : Exclusion where
  root := .ofString "/w"
  patterns := [⟨"vendor/**", "vendor/".toList.map .literal ++ [.anyDirectories]⟩]

/-- The exclusion of all that is in one directory is written as one pattern. -/
theorem ofSources_vendored : ofSources (.ofString "/w") ["vendor/**"] = .ok vendored := by
  cbv

/-- A dot behind the directory leaves a spelling plain. -/
theorem verdict_eq_iff_dot :
    (Path.ofString "/w/vendor/a.c").location = (Path.ofString "/w/./vendor/a.c").location ∧
      ofSources (.ofString "/w") ["vendor/**"] = .ok vendored ∧
      vendored.verdict (.ofString "/w/./vendor/a.c") =
        vendored.verdict (.ofString "/w/vendor/a.c") ∧
      vendored.verdict (.ofString "/w/vendor/a.c") = some (.excluded "vendor/**") := by
  have same : (Path.ofString "/w/vendor/a.c").location =
      (Path.ofString "/w/./vendor/a.c").location := by
    cbv
  have absolute : (Path.ofString "/w/vendor/a.c").isAbsolute = true := by cbv
  have also : (Path.ofString "/w/./vendor/a.c").isAbsolute = true := by cbv
  have leads : (Path.ofString "/w/vendor/a.c").location = (Path.ofString "/w").location ++
      [Utf8.encode "vendor".toList, Utf8.encode "a.c".toList] := by
    cbv
  have plain : (Path.ofString "/w/vendor/a.c").IsPlain (.ofString "/w") :=
    (Path.isPlain_iff absolute leads).mpr (by cbv)
  have likewise : (Path.ofString "/w/./vendor/a.c").IsPlain (.ofString "/w") :=
    (Path.isPlain_iff also (same ▸ leads)).mpr (by cbv)
  have text : (textBelow? (.ofString "/w") (.ofString "/w/vendor/a.c")).isSome = true := by cbv
  obtain ⟨agree, spelled, -⟩ := verdict_eq_iff absolute also same
  have verdicts := agree.mpr ((spelled plain text).mpr likewise)
  exact ⟨same, ofSources_vendored, (verdicts _ vendored ofSources_vendored).symm, by cbv⟩

/-- Of two spellings of one location one is excluded, and the other, which climbs on the way, is
not. -/
theorem verdict_climbing :
    (Path.ofString "/w/vendor/a.c").location =
        (Path.ofString "/w/src/../vendor/a.c").location ∧
      (Path.ofString "/w/vendor/a.c").isAbsolute = true ∧
      (Path.ofString "/w/src/../vendor/a.c").isAbsolute = true ∧
      ofSources (.ofString "/w") ["vendor/**"] = .ok vendored ∧
      vendored.verdict (.ofString "/w/vendor/a.c") = some (.excluded "vendor/**") ∧
      vendored.verdict (.ofString "/w/src/../vendor/a.c") = none := by
  refine ⟨?_, ?_, ?_, ofSources_vendored, ?_, ?_⟩
  · cbv
  · cbv
  · cbv
  · cbv
  · cbv

end Exclusion

end LicenseHeader
