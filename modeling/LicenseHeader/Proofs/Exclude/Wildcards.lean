import LicenseHeader.Proofs.Exclude.Spelling
import LicenseHeader.Proofs.Path.Text

/-!
# What patterns match

`Pattern.Matched` says which part of a text each part of a pattern takes, and a text that matches is
divided so (`Pattern.matched_of_matchTokens`). Only double stars take slashes that are not written
in the pattern, so that a pattern without them matches only texts with as many slashes as it has
outside of its sets of characters (`Exclusion.count_slash_of_excluded`).
-/

namespace LicenseHeader

namespace Pattern

/-- Whether the parts of a pattern take the parts of a text in order. -/
inductive Matched : List PatternToken → Text → Prop where
  /-- No part takes nothing. -/
  | nil : Matched [] []
  /-- A part for one character takes one that it accepts. -/
  | one {token : PatternToken} {tokens : List PatternToken} {c : Char} {text : Text}
      (accepted : PatternToken.accepts c token = true) (behind : Matched tokens text) :
      Matched (token :: tokens) (c :: text)
  /-- A star takes characters that are no slashes. -/
  | sequence {tokens : List PatternToken} {taken text : Text} (level : '/' ∉ taken)
      (behind : Matched tokens text) : Matched (.anySequence :: tokens) (taken ++ text)
  /-- Two stars take nothing, directories with the slash behind them, or all that is left. -/
  | directories {tokens : List PatternToken} {taken text : Text}
      (ends : taken = [] ∨ taken.getLast? = some '/' ∨ text = []) (behind : Matched tokens text) :
      Matched (.anyDirectories :: tokens) (taken ++ text)

/-- The text that is left when a star has taken its part matches the rest. -/
theorem exists_of_matchSequence {rest : Text → Outcome} {text : Text}
    (matched : matchSequence rest text = .matched) :
    ∃ taken left, text = taken ++ left ∧ '/' ∉ taken ∧ rest left = .matched := by
  induction text with
  | nil => exact ⟨[], [], rfl, by simp, matched⟩
  | cons c more ih =>
    unfold matchSequence at matched
    split at matched
    · split at matched
      · contradiction
      next other =>
        obtain ⟨taken, left, rfl, level, behind⟩ := ih matched
        refine ⟨c :: taken, left, rfl, ?_, behind⟩
        rw [List.mem_cons, not_or]
        exact ⟨Ne.symm other, level⟩
    · exact ⟨[], c :: more, rfl, by simp, matched⟩

/-- The text that is left when two stars have taken directories matches the rest. -/
theorem exists_of_matchDirectories {rest : Text → Outcome} {text : Text}
    (matched : matchDirectories rest text = .matched) :
    ∃ taken left, text = taken ++ left ∧ (taken.getLast? = some '/' ∨ left = []) ∧
      rest left = .matched := by
  induction text with
  | nil => exact ⟨[], [], rfl, .inr rfl, matched⟩
  | cons c more ih =>
    have further (matched : matchDirectories rest more = .matched) :
        ∃ taken left, c :: more = taken ++ left ∧ (taken.getLast? = some '/' ∨ left = []) ∧
          rest left = .matched := by
      obtain ⟨taken, left, rfl, ends, behind⟩ := ih matched
      refine ⟨c :: taken, left, rfl, ends.imp_left fun last => ?_, behind⟩
      rw [List.getLast?_cons, last]
      rfl
    unfold matchDirectories at matched
    split at matched
    next slash =>
      split at matched
      · exact further matched
      · exact ⟨['/'], more, by rw [slash]; rfl, .inl rfl, matched⟩
    · exact further matched

/-- A text that matches is divided among the parts of the pattern. -/
theorem matched_of_matchTokens {tokens : List PatternToken} {text : Text}
    (matched : matchTokens tokens text = .matched) : Matched tokens text := by
  induction tokens generalizing text with
  | nil =>
    cases text with
    | nil => exact .nil
    | cons c more => contradiction
  | cons token tokens ih =>
    cases token with
    | anySequence =>
      obtain ⟨taken, left, rfl, level, behind⟩ := exists_of_matchSequence matched
      exact .sequence level (ih behind)
    | anyDirectories =>
      unfold matchTokens at matched
      split at matched
      · obtain ⟨taken, left, rfl, ends, behind⟩ := exists_of_matchDirectories matched
        exact .directories (.inr ends) (ih behind)
      · have none : Matched (.anyDirectories :: tokens) ([] ++ text) :=
          .directories (.inl rfl) (ih matched)
        exact none
    | _ =>
      cases text with
      | nil => contradiction
      | cons c more =>
        unfold matchTokens at matched
        split at matched
        next accepted => exact .one accepted (ih matched)
        · contradiction

/-- A part that accepts a slash is the slash itself. -/
theorem accepts_slash {token : PatternToken} (accepted : PatternToken.accepts '/' token = true) :
    token = .literal '/' := by
  cases token with
  | literal expected => rw [← of_decide_eq_true accepted]
  | _ => simp [PatternToken.accepts] at accepted

/-- A text that matches without double stars has as many slashes as the pattern has literal ones. -/
theorem Matched.count_slash {tokens : List PatternToken} {text : Text}
    (matched : Matched tokens text) (level : .anyDirectories ∉ tokens) :
    text.count '/' = tokens.count (.literal '/') := by
  induction matched with
  | nil => rfl
  | @one token tokens c text accepted behind ih =>
    have rest := ih fun member => level (List.mem_cons_of_mem token member)
    by_cases slash : c = '/'
    · subst slash
      rw [accepts_slash accepted, List.count_cons_self, List.count_cons_self, rest]
    · have other : token ≠ .literal '/' := by
        rintro rfl
        exact slash (of_decide_eq_true accepted)
      rw [List.count_cons_of_ne slash, List.count_cons_of_ne other, rest]
  | @sequence tokens taken text solid behind ih =>
    have rest := ih fun member => level (List.mem_cons_of_mem _ member)
    rw [List.count_append, List.count_eq_zero.mpr solid, rest, List.count_cons_of_ne (by simp),
      Nat.zero_add]
  | directories => exact absurd List.mem_cons_self level

/-- Whether a text is what a pattern has outside of its sets of characters. The first character of a
set, behind the mark of negation if there is one, is in it whatever it is. -/
inductive Outside : Text → Text → Prop where
  /-- An empty pattern has nothing. -/
  | nil : Outside [] []
  /-- A character that opens no set. -/
  | char {c : Char} {source plain : Text} (other : c ≠ '[') (behind : Outside source plain) :
      Outside (c :: source) (c :: plain)
  /-- A set, up to the next bracket behind its first character. -/
  | within {first : Char} {inner source plain : Text} (unmarked : first ≠ '!')
      (closed : ']' ∉ inner) (behind : Outside source plain) :
      Outside ('[' :: first :: (inner ++ ']' :: source)) plain
  /-- A set of which all other characters are meant. -/
  | except {first : Char} {inner source plain : Text} (closed : ']' ∉ inner)
      (behind : Outside source plain) :
      Outside ('[' :: '!' :: first :: (inner ++ ']' :: source)) plain

/-- A set is closed by the first bracket behind its first character. -/
theorem dropWhile_closed {inner : Text} (closed : ']' ∉ inner) (rest : Text) :
    (inner ++ ']' :: rest).dropWhile (· ≠ ']') = ']' :: rest := by
  have inside : ∀ c ∈ inner, decide (c ≠ ']') = true := by
    intro c member
    exact decide_eq_true fun same => closed (same ▸ member)
  rw [List.dropWhile_append_of_pos inside]
  simp

/-- What follows the bracket that closes a set is known. -/
theorem eq_of_closed {inner other source rest : Text} (first : ']' ∉ inner) (second : ']' ∉ other)
    (same : inner ++ ']' :: source = other ++ ']' :: rest) : source = rest := by
  have dropped := congrArg (List.dropWhile (· ≠ ']')) same
  rw [dropWhile_closed first, dropWhile_closed second] at dropped
  exact (List.cons.inj dropped).2

/-- A pattern has one text outside of its sets. -/
theorem Outside.unique {source plain other : Text} (outside : Outside source plain)
    (also : Outside source other) : plain = other := by
  induction outside generalizing other with
  | nil =>
    cases also
    rfl
  | char solid behind ih =>
    cases also with
    | char _ behind' => rw [ih behind']
    | within => contradiction
    | except => contradiction
  | @within first inner source plain unmarked closed behind ih =>
    generalize whole : '[' :: first :: (inner ++ ']' :: source) = text at also
    cases also with
    | nil => contradiction
    | char solid _ => exact absurd (List.cons.inj whole).1.symm solid
    | within _ closed' behind' =>
      obtain rfl := eq_of_closed closed closed' (List.cons.inj (List.cons.inj whole).2).2
      exact ih behind'
    | except => exact absurd (List.cons.inj (List.cons.inj whole).2).1 unmarked
  | @except first inner source plain closed behind ih =>
    generalize whole : '[' :: '!' :: first :: (inner ++ ']' :: source) = text at also
    cases also with
    | nil => contradiction
    | char solid _ => exact absurd (List.cons.inj whole).1.symm solid
    | within unmarked => exact absurd (List.cons.inj (List.cons.inj whole).2).1.symm unmarked
    | except closed' behind' =>
      have parts := (List.cons.inj (List.cons.inj whole).2).2
      obtain rfl := eq_of_closed closed closed' (List.cons.inj parts).2
      exact ih behind'

/-- What is split off as the inside of brackets ends where the set is closed. -/
theorem of_splitSet? {text inside rest : Text} (found : splitSet? text = some (inside, rest)) :
    ∃ first inner, text = first :: (inner ++ ']' :: rest) ∧ ']' ∉ inner := by
  unfold splitSet? at found
  split at found
  · contradiction
  next first more =>
  split at found
  · contradiction
  next close after dropped =>
  obtain ⟨-, rfl⟩ := Prod.mk.inj (Option.some.inj found)
  have stops := List.head?_dropWhile_not (· ≠ ']') more
  have whole := List.takeWhile_append_dropWhile (p := (· ≠ ']')) (l := more)
  rw [dropped] at stops whole
  obtain rfl : close = ']' := by simpa using stops
  refine ⟨first, _, congrArg _ whole.symm, fun member => ?_⟩
  have inside := List.all_eq_true.mp List.all_takeWhile _ member
  exact of_decide_eq_true inside rfl

/-- Brackets that are read are a set with or without the mark of negation, and its token stands for
neither a slash nor directories. -/
theorem of_readSet? {text rest : Text} {token : PatternToken}
    (read : readSet? text = some (token, rest)) :
    token ≠ .literal '/' ∧ token ≠ .anyDirectories ∧
      ∃ first inner, ']' ∉ inner ∧
        (text = '!' :: first :: (inner ++ ']' :: rest) ∨
          first ≠ '!' ∧ text = first :: (inner ++ ']' :: rest)) := by
  unfold readSet? at read
  split at read
  next inside =>
    obtain ⟨⟨_, _⟩, found, same⟩ := Option.map_eq_some_iff.mp read
    obtain ⟨rfl, rfl⟩ := Prod.mk.inj same
    obtain ⟨first, inner, rfl, closed⟩ := of_splitSet? found
    exact ⟨by simp, by simp, first, inner, closed, .inl rfl⟩
  next inside unmarked =>
    obtain ⟨⟨_, _⟩, found, same⟩ := Option.map_eq_some_iff.mp read
    obtain ⟨rfl, rfl⟩ := Prod.mk.inj same
    obtain ⟨first, inner, rfl, closed⟩ := of_splitSet? found
    exact ⟨by simp, by simp, first, inner, closed,
      .inr ⟨fun mark => unmarked _ (by rw [mark]), rfl⟩⟩

/-- Nothing of brackets that are read is outside. -/
theorem outside_of_readSet? {text rest plain : Text} {token : PatternToken}
    (read : readSet? text = some (token, rest)) (behind : Outside rest plain) :
    Outside ('[' :: text) plain := by
  obtain ⟨-, -, first, inner, closed, rfl | ⟨unmarked, rfl⟩⟩ := of_readSet? read
  · exact .except closed behind
  · exact .within unmarked closed behind

/-- What brackets leave of a text ends it. -/
theorem suffix_of_readSet? {text rest : Text} {token : PatternToken}
    (read : readSet? text = some (token, rest)) : rest <:+ text := by
  obtain ⟨-, -, first, inner, -, rfl | ⟨-, rfl⟩⟩ := of_readSet? read
  · exact ⟨'!' :: first :: inner ++ [']'], by simp⟩
  · exact ⟨first :: inner ++ [']'], by simp⟩

/-- What is left of a text without double stars has none. -/
theorem not_stars_of_suffix {text rest : Text} (stars : ¬ "**".toList <:+: text)
    (ends : rest <:+ text) : ¬ "**".toList <:+: rest :=
  fun inside => stars (inside.trans ends.isInfix)

/-- Whether the tokens that a text adds to those before it take no directories and have the slashes
that the text has outside of its sets. -/
def Level (tokens result : List PatternToken) (text : Text) : Prop :=
  ∃ plain more, Outside text plain ∧ result = tokens.reverse ++ more ∧
    .anyDirectories ∉ more ∧ more.count (.literal '/') = plain.count '/'

/-- A token that one character writes, in front of others. -/
theorem Level.char {c : Char} {token : PatternToken} {tokens result : List PatternToken}
    {rest : Text} (other : c ≠ '[') (single : token ≠ .anyDirectories)
    (slash : token = .literal '/' ↔ c = '/') (behind : Level (token :: tokens) result rest) :
    Level tokens result (c :: rest) := by
  obtain ⟨plain, more, outside, rfl, level, counted⟩ := behind
  refine ⟨c :: plain, token :: more, .char other outside, by simp, ?_, ?_⟩
  · rw [List.mem_cons, not_or]
    exact ⟨Ne.symm single, level⟩
  · by_cases same : c = '/'
    · rw [slash.mpr same, same, List.count_cons_self, List.count_cons_self, counted]
    · rw [List.count_cons_of_ne (mt slash.mp same), List.count_cons_of_ne same, counted]

/-- A token that brackets write, in front of others. -/
theorem Level.set {token : PatternToken} {tokens result : List PatternToken} {text rest : Text}
    (read : readSet? text = some (token, rest)) (behind : Level (token :: tokens) result rest) :
    Level tokens result ('[' :: text) := by
  obtain ⟨plain, more, outside, rfl, level, counted⟩ := behind
  obtain ⟨solid, single, -⟩ := of_readSet? read
  refine ⟨plain, token :: more, outside_of_readSet? read outside, by simp, ?_, ?_⟩
  · rw [List.mem_cons, not_or]
    exact ⟨Ne.symm single, level⟩
  · rw [List.count_cons_of_ne solid, counted]

/-- The tokens of a text without double stars have the slashes that the text has outside of its
sets, and take no directories. -/
theorem level_of_tokensFrom {position : Nat} {previous : Option Char}
    {tokens result : List PatternToken} {text : Text} (stars : ¬ "**".toList <:+: text)
    (read : tokensFrom position previous tokens text = .ok result) :
    Level tokens result text := by
  fun_induction tokensFrom position previous tokens text with
  | case1 => exact ⟨[], [], .nil, by simpa using (Except.ok.inj read).symm, by simp, rfl⟩
  | case2 position previous tokens rest ih =>
    have behind := ih (not_stars_of_suffix stars (List.suffix_cons _ rest)) read
    exact behind.char (by decide) (by simp) (by simp)
  | case3 position previous tokens rest single other ih =>
    have behind := ih (not_stars_of_suffix stars (List.suffix_cons _ rest)) read
    exact behind.char (by decide) (by simp) (by simp)
  | case4 | case5 | case6 => contradiction
  | case7 position previous tokens rest double =>
    -- A star in front of another is what the text does not have.
    obtain ⟨more, rfl⟩ := List.head?_eq_some_iff.mp (not_not.mp double)
    exact absurd ⟨[], more, rfl⟩ stars
  | case8 => contradiction
  | case9 position previous tokens text token rest set other also ih =>
    have shorter := suffix_of_readSet? set
    have behind := ih (not_stars_of_suffix stars (shorter.trans (List.suffix_cons _ text))) read
    exact behind.set set
  | case10 position previous tokens c rest one any bracket ih =>
    have behind := ih (not_stars_of_suffix stars (List.suffix_cons c rest)) read
    exact behind.char bracket (by simp) (by simp)

/-- A pattern that is read has the text that was read and its tokens. -/
theorem parse_eq_ok_iff {source : String} {pattern : Pattern} :
    parse source = .ok pattern ↔
      pattern.source = source ∧ tokensFrom 0 none [] source.toList = .ok pattern.tokens := by
  obtain ⟨written, tokens⟩ := pattern
  unfold parse
  cases read : tokensFrom 0 none [] source.toList with
  | error fault => exact iff_of_false nofun nofun
  | ok parts =>
    constructor
    · intro made
      obtain ⟨rfl, rfl⟩ := Pattern.mk.inj (Except.ok.inj made)
      exact ⟨rfl, rfl⟩
    · rintro ⟨rfl, same⟩
      rw [Except.ok.inj same]
      rfl

/-- A text that matches a pattern without double stars has the slashes that the pattern has outside
of its sets. -/
theorem exists_outside {source : String} {pattern : Pattern} {text : Text}
    (read : parse source = .ok pattern) (stars : ¬ "**".toList <:+: source.toList)
    (matched : pattern.matchesText text = true) :
    ∃ plain, Outside source.toList plain ∧ text.count '/' = plain.count '/' := by
  obtain ⟨-, tokens⟩ := parse_eq_ok_iff.mp read
  obtain ⟨plain, more, outside, whole, level, counted⟩ := level_of_tokensFrom stars tokens
  rw [List.reverse_nil, List.nil_append] at whole
  subst whole
  have divided := matched_of_matchTokens (of_decide_eq_true matched)
  exact ⟨plain, outside, (divided.count_slash level).trans counted⟩

end Pattern

namespace Exclusion

variable {root path : Path} {sources : List String} {exclusion : Exclusion} {source : String}

/-- A path is excluded because of a pattern that is read and matches the text that is left. -/
theorem exists_of_excluded (read : ofSources root sources = .ok exclusion)
    (skipped : exclusion.verdict path = some (.excluded source)) :
    ∃ pattern text, Pattern.parse source = .ok pattern ∧ textBelow? root path = some text ∧
      pattern.matchesText text = true := by
  obtain ⟨patterns, parsed, rfl⟩ := exists_patterns read
  obtain ⟨pattern, found, same⟩ := Option.map_eq_some_iff.mp skipped
  obtain rfl := SkipReason.excluded.inj same
  have matched := List.find?_some found
  rw [matchesPath_belowOrSelf, Option.any_eq_true] at matched
  obtain ⟨text, left, whole⟩ := matched
  have member := List.mem_of_find?_eq_some found
  obtain ⟨written, -, made⟩ := (mem_parsePatterns parsed pattern).mp member
  obtain rfl := (Pattern.parse_eq_ok_iff.mp made).1
  exact ⟨pattern, text, made, left, whole⟩

/-- The text that is left of a path has the slashes between the names that are left. -/
theorem length_of_textBelow? {text : Text} {names : Location} (filled : names ≠ [])
    (proper : ∀ name ∈ names, Path.IsName name)
    (written : path.belowOrSelf root = ⟨Path.joinPieces names⟩)
    (left : textBelow? root path = some text) : names.length = text.count '/' + 1 := by
  have bytes : Utf8.encode text = Path.joinPieces names := by
    rw [textBelow?_eq_some_iff.mp left, written]
  rw [← Path.count_slash_joinPieces filled fun name member => (proper name member).whole, ← bytes,
    Path.count_slash_encode]

/-- A path that is excluded because of a pattern without double stars has in the text that is left
of it below the directory as many slashes as the pattern has outside of its sets of characters,
whatever the sets list. So the names that are left of a plain path are one more, and the pattern
excludes nothing at another depth. -/
theorem count_slash_of_excluded (read : ofSources root sources = .ok exclusion)
    (stars : ¬ "**".toList <:+: source.toList)
    (skipped : exclusion.verdict path = some (.excluded source)) :
    ∃ text plain, textBelow? root path = some text ∧ Pattern.Outside source.toList plain ∧
      (∀ other, Pattern.Outside source.toList other → other = plain) ∧
      text.count '/' = plain.count '/' ∧
      ∀ names : Location, names ≠ [] → (∀ name ∈ names, Path.IsName name) →
        path.belowOrSelf root = ⟨Path.joinPieces names⟩ →
          names.length = plain.count '/' + 1 := by
  obtain ⟨pattern, text, made, left, matched⟩ := exists_of_excluded read skipped
  obtain ⟨plain, outside, counted⟩ := Pattern.exists_outside made stars matched
  refine ⟨text, plain, left, outside, fun other also => also.unique outside, counted, ?_⟩
  intro names filled proper written
  rw [length_of_textBelow? filled proper written left, counted]

/-- Files of one directory excluded by their first character, out of a set that lists a slash. -/
def slashed : Exclusion where
  root := .ofString "/w"
  patterns := [⟨"s?c/[a/]*.c", [.literal 's', .anyChar, .literal 'c', .literal '/',
    .within [⟨'a', 'a'⟩, ⟨'/', '/'⟩], .anySequence, .literal '.', .literal 'c']⟩]

/-- A slash that a set lists does not count. -/
theorem count_slash_of_excluded_set :
    ofSources (.ofString "/w") ["s?c/[a/]*.c"] = .ok slashed ∧
      ¬ "**".toList <:+: "s?c/[a/]*.c".toList ∧
      slashed.verdict (.ofString "/w/src/ab.c") = some (.excluded "s?c/[a/]*.c") ∧
      ∃ text, textBelow? (.ofString "/w") (.ofString "/w/src/ab.c") = some text ∧
        text.count '/' = "s?c/*.c".toList.count '/' := by
  have read : ofSources (.ofString "/w") ["s?c/[a/]*.c"] = .ok slashed := by cbv
  have stars : ¬ "**".toList <:+: "s?c/[a/]*.c".toList := by decide
  have skipped : slashed.verdict (.ofString "/w/src/ab.c") =
      some (.excluded "s?c/[a/]*.c") := by
    cbv
  have outside : Pattern.Outside "s?c/[a/]*.c".toList "s?c/*.c".toList := by
    have behind : Pattern.Outside ('[' :: 'a' :: (['/'] ++ ']' :: "*.c".toList)) "*.c".toList := by
      refine .within ?_ ?_ (.char ?_ (.char ?_ (.char ?_ .nil)))
      all_goals decide
    refine .char ?_ (.char ?_ (.char ?_ (.char ?_ behind)))
    all_goals decide
  obtain ⟨text, plain, left, -, only, counted, -⟩ := count_slash_of_excluded read stars skipped
  exact ⟨read, stars, skipped, text, left, by rw [only _ outside, counted]⟩

end Exclusion

end LicenseHeader
