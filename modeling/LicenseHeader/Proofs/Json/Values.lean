import LicenseHeader.Proofs.Json.Numbers
import LicenseHeader.Proofs.Json.Strings
import Mathlib.Data.List.Forall2

/-!
# Values are read back

`Reads text value` says that a text is read as a value, whatever stands behind it. Each kind of
value has its law; those of arrays and objects ask for the law of their elements only and allow any
white space around these, so that a value is read back both from one line (`IsSound.reads_compact`)
and from several lines (`IsSound.reads_prettyAt`).
-/

namespace LicenseHeader.JsonValue

/-! ## White space -/

/-- Whether a text is white space. -/
def IsBlank (text : Text) : Prop := ∀ c ∈ text, isSpace c = true

/-- White space at the start of a text is dropped with all that follows it. -/
theorem dropSpace_append {blank : Text} (white : IsBlank blank) (text : Text) :
    dropSpace (blank ++ text) = dropSpace text := List.dropWhile_append_of_pos white

/-- A text that starts with no white space stays as it is. -/
theorem dropSpace_cons {c : Char} (black : isSpace c = false) (rest : Text) :
    dropSpace (c :: rest) = c :: rest := List.dropWhile_cons_of_neg (by simp [black])

/-- White space in front of a value is passed over. -/
theorem readValue_append {blank : Text} (white : IsBlank blank) (fuel : Nat) (text : Text) :
    readValue fuel (blank ++ text) = readValue fuel text := by
  cases fuel with
  | zero => rfl
  | succ fuel => rw [readValue, readValue, dropSpace_append white]

/-- White space in front of elements is passed over. -/
theorem readElements_append {blank : Text} (white : IsBlank blank) (fuel : Nat) (text : Text) :
    readElements fuel (blank ++ text) = readElements fuel text := by
  cases fuel with
  | zero => rfl
  | succ fuel => rw [readElements, readElements, readValue_append white]

/-- White space in front of fields is passed over. -/
theorem readFields_append {blank : Text} (white : IsBlank blank) (fuel : Nat) (text : Text) :
    readFields fuel (blank ++ text) = readFields fuel text := by
  cases fuel with
  | zero => rfl
  | succ fuel => rw [readFields, readFields, dropSpace_append white]

/-- A character that is no part of a number ends it. -/
theorem endsNumber_cons {c : Char} (apart : isDigit c = false ∧ c ≠ '.' ∧ c ≠ 'e' ∧ c ≠ 'E')
    (rest : Text) : EndsNumber (c :: rest) := by
  rintro _ ⟨⟩
  exact apart

/-- White space ends a number as does what may follow it. -/
theorem endsNumber_append {blank rest : Text} (white : IsBlank blank) (ended : EndsNumber rest) :
    EndsNumber (blank ++ rest) := by
  cases blank with
  | nil => exact ended
  | cons c more =>
    have space := white c List.mem_cons_self
    simp only [isSpace, Bool.or_eq_true, decide_eq_true_eq] at space
    rcases space with ((rfl | rfl) | rfl) | rfl <;> exact endsNumber_cons (by decide) _

/-! ## Reading a text as a value -/

/-- Whether a text is read as a value, whatever stands behind it that does not continue a number.
Fuel for two steps a character is enough: a value takes one step, and a line between commas takes
another, but a comma or a bracket stands beside each line. -/
def Reads (text : Text) (value : JsonValue) : Prop :=
  ∀ fuel rest, 2 * text.length ≤ fuel + 1 → EndsNumber rest →
    readValue (fuel + 1) (text ++ rest) = some (value, rest)

/-- A text that is read as a value holds the value. -/
theorem Reads.read {text : Text} {value : JsonValue} (reads : Reads text value) :
    read text = some value := by
  have whole := reads (2 * text.length) [] (Nat.le_succ _) (by rintro _ ⟨⟩)
  rw [List.append_nil] at whole
  rw [JsonValue.read, whole]
  rfl

/-- A text that starts with a word is read behind it. -/
theorem afterWord?_append (word rest : Text) : afterWord? word (word ++ rest) = some rest := by
  simp [afterWord?]

/-- The word for null is read as this. -/
theorem reads_null : Reads "null".toList .null := by
  intro fuel rest _ _
  have word : "null".toList = 'n' :: "ull".toList := by decide
  rw [word, List.cons_append, readValue, dropSpace_cons (by decide)]
  simp only [Char.reduceEq, if_false, if_true, afterWord?_append, Option.map_some]

/-- The words for truth values are read as these. -/
theorem reads_bool (value : Bool) :
    Reads (if value then "true" else "false").toList (.bool value) := by
  intro fuel rest _ _
  cases value with
  | true =>
    have word : "true".toList = 't' :: "rue".toList := by decide
    rw [if_pos rfl, word, List.cons_append, readValue, dropSpace_cons (by decide)]
    simp only [Char.reduceEq, if_false, if_true, afterWord?_append, Option.map_some]
  | false =>
    have word : "false".toList = 'f' :: "alse".toList := by decide
    rw [if_neg Bool.false_ne_true, word, List.cons_append, readValue, dropSpace_cons (by decide)]
    simp only [Char.reduceEq, if_false, if_true, afterWord?_append, Option.map_some]

/-- A string in quotes is read as the string. -/
theorem reads_string (content : JsonString) : Reads (quoted content) (.string content) := by
  intro fuel rest _ _
  obtain ⟨opened, start, held⟩ := readString_quoted content rest
  rw [start, readValue, dropSpace_cons (by decide)]
  simp [held]

/-- A number without a sign is read as it is written. -/
theorem reads_number {text : Text} (written : IsNumeral text) : Reads text (.number text) := by
  intro fuel rest _ ended
  obtain ⟨c, more, start, digit⟩ := written.exists_cons
  have other {d : Char} (plain : isDigit d = false) : c ≠ d := by
    rintro rfl
    exact absurd digit (by simp [plain])
  have black : isSpace c = false := by
    simp [isSpace, other (d := ' ') (by decide), other (d := '\t') (by decide),
      other (d := '\n') (by decide), other (d := '\r') (by decide)]
  have number := readNumber_append written ended
  rw [start, List.cons_append] at *
  rw [readValue, dropSpace_cons black]
  dsimp only
  rw [if_neg (other (by decide)), if_neg (other (by decide)), if_neg (other (by decide)),
    if_neg (other (by decide)), if_neg (other (by decide)), if_neg (other (by decide)), number]
  rfl

/-! ## Arrays and objects -/

/-- Whether lines between commas are read as items up to a closing bracket, where `Item` says which
lines are read as which items. -/
structure ReadsItems {α : Type} (closing : Char) (Item : Text → α → Prop)
    (read : Nat → Text → Option (List α × Text)) : Prop where
  /-- The closing bracket is no white space. -/
  black : isSpace closing = false
  /-- The closing bracket ends a number. -/
  apart (rest : Text) : EndsNumber (closing :: rest)
  /-- The closing bracket starts no item. -/
  refuses {text after : Text} (closed : dropSpace text = closing :: after) (fuel : Nat) :
    read fuel text = none
  /-- White space in front of the first line is passed over. -/
  blank {blank : Text} (white : IsBlank blank) (fuel : Nat) (text : Text) :
    read fuel (blank ++ text) = read fuel text
  /-- The line before the closing bracket is read as the last item. -/
  last {line : Text} {item : α} (stands : Item line item) {fuel : Nat} {rest after : Text}
    (enough : 2 * line.length ≤ fuel + 1) (ended : EndsNumber rest)
    (closed : dropSpace rest = closing :: after) :
    read (fuel + 2) (line ++ rest) = some ([item], after)
  /-- A line before a comma is read as an item in front of those behind the comma. -/
  more {line : Text} {item : α} (stands : Item line item) {fuel : Nat} {rest after : Text}
    (enough : 2 * line.length ≤ fuel + 1) (ended : EndsNumber rest)
    (comma : dropSpace rest = ',' :: after) : read (fuel + 2) (line ++ rest) =
      (read (fuel + 1) after).map fun found => (item :: found.1, found.2)

/-- Lines with commas and white space between them are read as all their items, by induction on the
lines: each is read by the law of its item, up to its comma or the closing bracket. -/
theorem ReadsItems.read_commas {α : Type} {closing : Char} {Item : Text → α → Prop}
    {read : Nat → Text → Option (List α × Text)} (reads : ReadsItems closing Item read)
    {between after : Text} (white : IsBlank between) (final : IsBlank after) {lines : List Text}
    {items : List α} (each : List.Forall₂ Item lines items) (filled : items ≠ []) {fuel : Nat}
    (enough : 2 * (commas between lines).length ≤ fuel + 1) (rest : Text) :
    read (fuel + 2) (commas between lines ++ (after ++ closing :: rest)) = some (items, rest) := by
  induction each generalizing fuel with
  | nil => exact absurd rfl filled
  | @cons line item lines items stands others ih =>
    cases others with
    | nil =>
      refine reads.last stands enough (endsNumber_append final (reads.apart rest)) ?_
      rw [dropSpace_append final, dropSpace_cons reads.black]
    | @cons second next lines items =>
      have whole (tail : Text) : commas between (line :: second :: lines) ++ tail =
          line ++ ',' :: (between ++ (commas between (second :: lines) ++ tail)) := by simp [commas]
      simp only [commas, List.length_append, List.length_cons] at enough
      -- The comma pays for the step to the lines behind it.
      obtain ⟨fuel, rfl⟩ : ∃ less, fuel = less + 1 := ⟨fuel - 1, by omega⟩
      rw [whole, reads.more stands (by omega) (endsNumber_cons (by decide) _)
        (dropSpace_cons (by decide) _), reads.blank white,
        ih (List.cons_ne_nil next items) (by omega)]
      rfl

/-- Lines between brackets are read as all their items: when there is none, the closing bracket is
the first thing behind the opening one, and otherwise it is not. -/
theorem ReadsItems.read_bracketed {α : Type} {closing : Char} {Item : Text → α → Prop}
    {read : Nat → Text → Option (List α × Text)} (reads : ReadsItems closing Item read)
    {before between after : Text} (first : IsBlank before) (white : IsBlank between)
    (final : IsBlank after) {lines : List Text} {items : List α}
    (each : List.Forall₂ Item lines items) {fuel : Nat}
    (enough : 2 * (commas between lines).length ≤ fuel + 1) (rest : Text) :
    let inner := before ++ (commas between lines ++ (after ++ closing :: rest))
    (items = [] ∧ dropSpace inner = closing :: rest) ∨
      ((∀ behind, dropSpace inner ≠ closing :: behind) ∧
        read (fuel + 2) inner = some (items, rest)) := by
  intro inner
  by_cases empty : items = []
  · left
    obtain rfl : lines = [] := List.forall₂_nil_right_iff.mp (empty ▸ each)
    refine ⟨empty, ?_⟩
    show dropSpace (before ++ (after ++ closing :: rest)) = _
    rw [dropSpace_append first, dropSpace_append final, dropSpace_cons reads.black]
  · right
    have found : read (fuel + 2) inner = some (items, rest) := by
      rw [reads.blank first]
      exact reads.read_commas white final each empty enough rest
    refine ⟨fun behind closed => ?_, found⟩
    rw [reads.refuses closed] at found
    contradiction

/-- No value starts with a closing bracket. -/
theorem readValue_of_closed {text after : Text} (closed : dropSpace text = ']' :: after)
    (fuel : Nat) : readValue fuel text = none := by
  cases fuel with
  | zero => rfl
  | succ fuel =>
    rw [readValue, closed]
    rfl

/-- Texts of values are read as the elements of an array. -/
theorem readsItems_elements : ReadsItems ']' Reads readElements where
  black := by decide
  apart := endsNumber_cons (by decide)
  refuses := by
    intro text after closed fuel
    cases fuel with
    | zero => rfl
    | succ fuel => rw [readElements, readValue_of_closed closed]; rfl
  blank := readElements_append
  last reads _ _ _ enough ended closed := by
    simp [readElements, reads _ _ enough ended, closed]
  more reads _ _ _ enough ended comma := by
    simp [readElements, reads _ _ enough ended, comma]

/-- Whether a text is a key in quotes, a colon and a text that is read as a value. -/
def ReadsField (line : Text) (field : JsonString × JsonValue) : Prop :=
  ∃ gap text, line = quoted field.1 ++ ':' :: (gap ++ text) ∧ IsBlank gap ∧ Reads text field.2

/-- The line of a field is a quote, what is read as the key and a colon, and what is read as the
value. -/
theorem ReadsField.exists_opened {line rest : Text} {field : JsonString × JsonValue} {fuel : Nat}
    (reads : ReadsField line field) (enough : 2 * line.length ≤ fuel + 1)
    (ended : EndsNumber rest) : ∃ opened behind, line ++ rest = '"' :: opened ∧
      readString opened = some (field.1, ':' :: behind) ∧
      readValue (fuel + 1) behind = some (field.2, rest) := by
  obtain ⟨gap, text, rfl, white, value⟩ := reads
  obtain ⟨opened, start, key⟩ := readString_quoted field.1 (':' :: (gap ++ (text ++ rest)))
  refine ⟨opened, gap ++ (text ++ rest), ?_, key, ?_⟩
  · rw [← start]
    simp
  · simp only [List.length_append, List.length_cons] at enough
    rw [readValue_append white, value fuel rest (by omega) ended]

/-- Keys and values are read as the fields of an object. -/
theorem readsItems_fields : ReadsItems '\x7d' ReadsField readFields where
  black := by decide
  apart := endsNumber_cons (by decide)
  refuses := by
    intro text after closed fuel
    cases fuel with
    | zero => rfl
    | succ fuel => simp [readFields, closed]
  blank := readFields_append
  last := by
    intro line field reads fuel rest after enough ended closed
    obtain ⟨opened, behind, whole, key, value⟩ := reads.exists_opened enough ended
    rw [whole, readFields, dropSpace_cons (by decide)]
    simp [key, dropSpace_cons (c := ':') (by decide), value, closed]
  more := by
    intro line field reads fuel rest after enough ended comma
    obtain ⟨opened, behind, whole, key, value⟩ := reads.exists_opened enough ended
    rw [whole, readFields, dropSpace_cons (by decide)]
    simp [key, dropSpace_cons (c := ':') (by decide), value, comma]

/-- Texts of values between brackets are read as an array. -/
theorem reads_array {before between after : Text} (first : IsBlank before)
    (white : IsBlank between) (final : IsBlank after) {lines : List Text}
    {elements : List JsonValue} (each : List.Forall₂ Reads lines elements) :
    Reads ('[' :: (before ++ (commas between lines ++ (after ++ [']'])))) (.array elements) := by
  intro fuel rest enough _
  simp only [List.length_append, List.length_cons] at enough
  obtain ⟨fuel, rfl⟩ : ∃ less, fuel = less + 2 := ⟨fuel - 2, by omega⟩
  have room : 2 * (commas between lines).length ≤ fuel + 1 := by omega
  have inner := readsItems_elements.read_bracketed first white final each room rest
  simp only [List.cons_append, List.append_assoc, List.nil_append]
  rw [readValue, dropSpace_cons (by decide)]
  rcases inner with ⟨rfl, closed⟩ | ⟨opened, found⟩
  · simp [closed]
  · simp [found]

/-- Keys and values between braces are read as an object. -/
theorem reads_object {before between after : Text} (first : IsBlank before)
    (white : IsBlank between) (final : IsBlank after) {lines : List Text}
    {fields : List (JsonString × JsonValue)} (each : List.Forall₂ ReadsField lines fields) :
    Reads ('\x7b' :: (before ++ (commas between lines ++ (after ++ ['\x7d']))))
      (.object fields) := by
  intro fuel rest enough _
  simp only [List.length_append, List.length_cons] at enough
  obtain ⟨fuel, rfl⟩ : ∃ less, fuel = less + 2 := ⟨fuel - 2, by omega⟩
  have room : 2 * (commas between lines).length ≤ fuel + 1 := by omega
  have inner := readsItems_fields.read_bracketed first white final each room rest
  simp only [List.cons_append, List.append_assoc, List.nil_append]
  rw [readValue, dropSpace_cons (by decide)]
  rcases inner with ⟨rfl, closed⟩ | ⟨opened, found⟩
  · simp [closed]
  · simp [found]

/-! ## What is written -/

/-- Whether all numbers in a value are numbers without a sign. -/
inductive IsSound : JsonValue → Prop where
  /-- Null. -/
  | null : IsSound .null
  /-- A truth value. -/
  | bool (value : Bool) : IsSound (.bool value)
  /-- A number. -/
  | number {text : Text} (written : IsNumeral text) : IsSound (.number text)
  /-- A string. -/
  | string (content : JsonString) : IsSound (.string content)
  /-- An array of such values. -/
  | array {elements : List JsonValue} (each : ∀ element ∈ elements, IsSound element) :
    IsSound (.array elements)
  /-- An object of such values. -/
  | object {fields : List (JsonString × JsonValue)} (each : ∀ field ∈ fields, IsSound field.2) :
    IsSound (.object fields)

/-- The texts of elements without any space. -/
theorem compactElements_eq_map (elements : List JsonValue) :
    compact.compactElements elements = elements.map compact := by
  induction elements with
  | nil => rfl
  | cons element more ih => rw [compact.compactElements, ih, List.map_cons]

/-- The texts of fields without any space. -/
theorem compactFields_eq_map (fields : List (JsonString × JsonValue)) :
    compact.compactFields fields =
      fields.map fun field => quoted field.1 ++ ':' :: compact field.2 := by
  induction fields with
  | nil => rfl
  | cons field more ih => rw [compact.compactFields, ih, List.map_cons]

/-- The texts of elements over several lines. -/
theorem prettyElements_eq_map (level : Nat) (elements : List JsonValue) :
    prettyAt.prettyElements level elements = elements.map (prettyAt level) := by
  induction elements with
  | nil => rfl
  | cons element more ih => rw [prettyAt.prettyElements, ih, List.map_cons]

/-- The texts of fields over several lines. -/
theorem prettyFields_eq_map (level : Nat) (fields : List (JsonString × JsonValue)) :
    prettyAt.prettyFields level fields =
      fields.map fun field => quoted field.1 ++ ':' :: ' ' :: prettyAt level field.2 := by
  induction fields with
  | nil => rfl
  | cons field more ih => rw [prettyAt.prettyFields, ih, List.map_cons]

/-- A value without any space is read back. -/
theorem IsSound.reads_compact {value : JsonValue} (sound : value.IsSound) :
    Reads value.compact value := by
  have empty : IsBlank [] := List.forall_mem_nil _
  induction sound with
  | null => exact reads_null
  | bool value => exact reads_bool value
  | number written => exact reads_number written
  | string content => exact reads_string content
  | @array elements each ih =>
    have lines : List.Forall₂ Reads (elements.map compact) elements := by
      rw [List.forall₂_map_left_iff, List.forall₂_same]
      exact ih
    have read := reads_array empty empty empty lines
    rwa [List.nil_append, List.nil_append, ← compactElements_eq_map] at read
  | @object fields each ih =>
    have lines : List.Forall₂ ReadsField
        (fields.map fun field => quoted field.1 ++ ':' :: compact field.2) fields := by
      rw [List.forall₂_map_left_iff, List.forall₂_same]
      exact fun field member => ⟨[], _, rfl, empty, ih field member⟩
    have read := reads_object empty empty empty lines
    rwa [List.nil_append, List.nil_append, ← compactFields_eq_map] at read

/-- The start of a line is white space. -/
theorem isBlank_newLine (level : Nat) : IsBlank (newLine level) := by
  rintro c (_ | ⟨_, member⟩)
  · decide
  · rw [List.eq_of_mem_replicate member]
    decide

/-- Lines between brackets, whatever their number, are the lines with white space around them. -/
theorem exists_bracketed (opening closing : Char) (level : Nat) (lines : List Text) :
    ∃ before between after, IsBlank before ∧ IsBlank between ∧ IsBlank after ∧
      bracketed opening closing level lines =
        opening :: (before ++ (commas between lines ++ (after ++ [closing]))) := by
  have empty : IsBlank [] := List.forall_mem_nil _
  cases lines with
  | nil => exact ⟨[], [], [], empty, empty, empty, rfl⟩
  | cons line more =>
    refine ⟨_, _, _, isBlank_newLine (level + 1), isBlank_newLine (level + 1),
      isBlank_newLine level, ?_⟩
    simp [bracketed]

/-- A value over several lines is read back. -/
theorem IsSound.reads_prettyAt {value : JsonValue} (sound : value.IsSound) (level : Nat) :
    Reads (value.prettyAt level) value := by
  induction sound generalizing level with
  | null => exact reads_null
  | bool value => exact reads_bool value
  | number written => exact reads_number written
  | string content => exact reads_string content
  | @array elements each ih =>
    have lines : List.Forall₂ Reads (elements.map (prettyAt (level + 1))) elements := by
      rw [List.forall₂_map_left_iff, List.forall₂_same]
      exact fun element member => ih element member (level + 1)
    rw [prettyAt, prettyElements_eq_map]
    obtain ⟨_, _, _, first, white, final, whole⟩ := exists_bracketed '[' ']' level
      (elements.map (prettyAt (level + 1)))
    exact whole ▸ reads_array first white final lines
  | @object fields each ih =>
    have lines : List.Forall₂ ReadsField (fields.map fun field =>
        quoted field.1 ++ ':' :: ' ' :: prettyAt (level + 1) field.2) fields := by
      rw [List.forall₂_map_left_iff, List.forall₂_same]
      have gap : IsBlank [' '] := List.forall_mem_singleton.mpr rfl
      exact fun field member => ⟨[' '], _, rfl, gap, ih field member (level + 1)⟩
    rw [prettyAt, prettyFields_eq_map]
    obtain ⟨_, _, _, first, white, final, whole⟩ := exists_bracketed '\x7b' '\x7d' level
      (fields.map fun field => quoted field.1 ++ ':' :: ' ' :: prettyAt (level + 1) field.2)
    exact whole ▸ reads_object first white final lines

end LicenseHeader.JsonValue
