import LicenseHeader.Text.Utf8

/-!
# Bytes of text

`Utf8.decode_eq_ok_iff` says that the bytes which are read as a text are exactly those that write
it, so that a text has one written form.
-/

namespace LicenseHeader.Utf8

/-- A code point is the number of its character. -/
theorem toNat_ofNat {n : Nat} (valid : n.isValidChar) : (Char.ofNat n).toNat = n := by
  unfold Char.ofNat
  rw [dif_pos valid]
  rfl

/-- A byte is known by its number. -/
theorem ofNat_eq {n : Nat} {b : UInt8} (same : n = b.toNat) : UInt8.ofNat n = b := by
  rw [same]
  exact UInt8.ofNat_toNat

/-- The numbers of the bytes that follow the first one. -/
theorem isTail_iff (b : UInt8) : isTail b = true ↔ 0x80 ≤ b.toNat ∧ b.toNat ≤ 0xBF := by
  unfold isTail
  simp only [Bool.and_eq_true, decide_eq_true_eq, UInt8.le_iff_toNat_le]
  exact Iff.rfl

/-- The numbers of the bytes that follow the first one of a character of three or four bytes. -/
theorem isSecond_iff (a b : UInt8) : isSecond a b = true ↔
    0x80 ≤ b.toNat ∧ b.toNat ≤ 0xBF ∧ (a.toNat = 0xE0 → 0xA0 ≤ b.toNat) ∧
      (a.toNat = 0xF0 → 0x90 ≤ b.toNat) ∧ (a.toNat = 0xED → b.toNat ≤ 0x9F) ∧
      (a.toNat = 0xF4 → b.toNat ≤ 0x8F) := by
  unfold isSecond
  simp only [Bool.and_eq_true, decide_eq_true_eq, UInt8.le_iff_toNat_le, ← UInt8.toNat_inj,
    apply_ite UInt8.toNat, UInt8.reduceToNat]
  grind

/-- One byte writes the character that it is read as. -/
theorem encodeChar_one {a : UInt8} (first : a.toNat < 0x80) :
    encodeChar (Char.ofNat a.toNat) = [a] := by
  unfold encodeChar
  rw [toNat_ofNat (Or.inl (by omega)), if_pos first, ofNat_eq rfl]

/-- Two bytes write the character that they are read as. -/
theorem encodeChar_two {a b : UInt8} (first : 0xC2 ≤ a.toNat ∧ a.toNat ≤ 0xDF)
    (second : isTail b = true) :
    encodeChar (Char.ofNat ((a.toNat - 0xC0) * 64 + tailBits b)) = [a, b] := by
  rw [isTail_iff] at second
  unfold encodeChar tailBits
  rw [toNat_ofNat (Or.inl (by omega)), if_neg (by omega), if_pos (by omega),
    ofNat_eq (b := a) (by omega), ofNat_eq (b := b) (by omega)]

/-- Three bytes write the character that they are read as. -/
theorem encodeChar_three {a b c : UInt8} (first : 0xE0 ≤ a.toNat ∧ a.toNat ≤ 0xEF)
    (second : isSecond a b = true) (third : isTail c = true) :
    encodeChar (Char.ofNat ((a.toNat - 0xE0) * 4096 + tailBits b * 64 + tailBits c)) =
      [a, b, c] := by
  rw [isSecond_iff] at second
  rw [isTail_iff] at third
  have valid : ((a.toNat - 0xE0) * 4096 + tailBits b * 64 + tailBits c).isValidChar := by
    unfold Nat.isValidChar tailBits
    omega
  unfold encodeChar
  rw [toNat_ofNat valid]
  unfold tailBits
  rw [if_neg (by omega), if_neg (by omega), if_pos (by omega), ofNat_eq (b := a) (by omega),
    ofNat_eq (b := b) (by omega), ofNat_eq (b := c) (by omega)]

/-- Four bytes write the character that they are read as. -/
theorem encodeChar_four {a b c d : UInt8} (first : 0xF0 ≤ a.toNat ∧ a.toNat ≤ 0xF4)
    (second : isSecond a b = true) (third : isTail c = true) (fourth : isTail d = true) :
    encodeChar (Char.ofNat ((a.toNat - 0xF0) * 262144 + tailBits b * 4096 + tailBits c * 64 +
      tailBits d)) = [a, b, c, d] := by
  rw [isSecond_iff] at second
  rw [isTail_iff] at third fourth
  have valid : ((a.toNat - 0xF0) * 262144 + tailBits b * 4096 + tailBits c * 64 +
      tailBits d).isValidChar := by
    unfold Nat.isValidChar tailBits
    omega
  unfold encodeChar
  rw [toNat_ofNat valid]
  unfold tailBits
  rw [if_neg (by omega), if_neg (by omega), if_neg (by omega), ofNat_eq (b := a) (by omega),
    ofNat_eq (b := b) (by omega), ofNat_eq (b := c) (by omega), ofNat_eq (b := d) (by omega)]

/-- The bytes that are read as a character write it. -/
theorem encodeChar_of_head {first : UInt8} {rest : Bytes} {c : Char} {more : Nat}
    (read : head first rest = .char c more) : encodeChar c = first :: rest.take more := by
  unfold head at read
  simp only [Bool.and_eq_true, decide_eq_true_eq, UInt8.le_iff_toNat_le, UInt8.lt_iff_toNat_lt,
    UInt8.reduceToNat] at read
  split at read
  next one =>
    obtain ⟨rfl, rfl⟩ := read
    exact encodeChar_one one
  next =>
  split at read
  next two =>
    fun_cases headOfTwo first rest <;> simp_all [headOfTwo]
    obtain ⟨rfl, rfl⟩ := read
    simp [encodeChar_two, *]
  next =>
  split at read
  next three =>
    fun_cases headOfThree first rest <;> simp_all [headOfThree]
    obtain ⟨rfl, rfl⟩ := read
    simp [encodeChar_three, *]
  next =>
  split at read
  next four =>
    fun_cases headOfFour first rest <;> simp_all [headOfFour]
    obtain ⟨rfl, rfl⟩ := read
    simp [encodeChar_four, *]
  next => contradiction

/-- A byte below the others is a character. -/
theorem head_one {a : UInt8} (first : a.toNat < 0x80) (rest : Bytes) :
    head a rest = .char (Char.ofNat a.toNat) 0 := by
  unfold head
  rw [if_pos (UInt8.lt_iff_toNat_lt.mpr first)]

/-- Two bytes are a character. -/
theorem head_two {a b : UInt8} (first : 0xC2 ≤ a.toNat ∧ a.toNat ≤ 0xDF)
    (second : isTail b = true) (rest : Bytes) :
    head a (b :: rest) = .char (Char.ofNat ((a.toNat - 0xC0) * 64 + tailBits b)) 1 := by
  unfold head headOfTwo
  simp only [Bool.and_eq_true, decide_eq_true_eq, UInt8.le_iff_toNat_le, UInt8.lt_iff_toNat_lt,
    UInt8.reduceToNat]
  rw [if_neg (by omega), if_pos (by omega), if_pos second]

/-- Three bytes are a character. -/
theorem head_three {a b c : UInt8} (first : 0xE0 ≤ a.toNat ∧ a.toNat ≤ 0xEF)
    (second : isSecond a b = true) (third : isTail c = true) (rest : Bytes) :
    head a (b :: c :: rest) = .char
      (Char.ofNat ((a.toNat - 0xE0) * 4096 + tailBits b * 64 + tailBits c)) 2 := by
  unfold head headOfThree
  simp only [Bool.and_eq_true, decide_eq_true_eq, UInt8.le_iff_toNat_le, UInt8.lt_iff_toNat_lt,
    UInt8.reduceToNat]
  rw [if_neg (by omega), if_neg (by omega), if_pos (by omega), if_pos second, if_pos third]

/-- Four bytes are a character. -/
theorem head_four {a b c d : UInt8} (first : 0xF0 ≤ a.toNat ∧ a.toNat ≤ 0xF4)
    (second : isSecond a b = true) (third : isTail c = true) (fourth : isTail d = true)
    (rest : Bytes) :
    head a (b :: c :: d :: rest) = .char
      (Char.ofNat ((a.toNat - 0xF0) * 262144 + tailBits b * 4096 + tailBits c * 64 +
        tailBits d)) 3 := by
  unfold head headOfFour
  simp only [Bool.and_eq_true, decide_eq_true_eq, UInt8.le_iff_toNat_le, UInt8.lt_iff_toNat_lt,
    UInt8.reduceToNat]
  rw [if_neg (by omega), if_neg (by omega), if_neg (by omega), if_pos (by omega), if_pos second,
    if_pos third, if_pos fourth]

/-- A byte that carries six bits can follow the first byte of a character, and gives them back. -/
theorem isTail_of_mod (n : Nat) :
    isTail (UInt8.ofNat (0x80 + n % 64)) = true ∧
      tailBits (UInt8.ofNat (0x80 + n % 64)) = n % 64 := by
  have byte : (UInt8.ofNat (0x80 + n % 64)).toNat = 0x80 + n % 64 :=
    UInt8.toNat_ofNat_of_lt' (by show _ < 256; omega)
  constructor
  · rw [isTail_iff, byte]
    omega
  · unfold tailBits
    rw [byte]
    omega

/-- The bytes that write a character are read as it, whatever follows them. -/
theorem head_encodeChar (c : Char) (rest : Bytes) :
    ∃ first more, encodeChar c = first :: more ∧
      head first (more ++ rest) = .char c more.length := by
  have valid : c.toNat < 0xD800 ∨ (0xDFFF < c.toNat ∧ c.toNat < 0x110000) := c.valid
  have byte {n : Nat} (small : n < 256) : (UInt8.ofNat n).toNat = n :=
    UInt8.toNat_ofNat_of_lt' small
  have number {n : Nat} (same : n = c.toNat) : Char.ofNat n = c := by
    rw [same]
    exact Char.ofNat_toNat c
  have last := isTail_of_mod c.toNat
  have middle := isTail_of_mod (c.toNat / 64)
  unfold encodeChar
  by_cases one : c.toNat < 0x80
  · rw [if_pos one]
    refine ⟨_, [], rfl, ?_⟩
    rw [head_one (by rw [byte (by omega)]; exact one), byte (by omega), number rfl]
    rfl
  rw [if_neg one]
  by_cases two : c.toNat < 0x800
  · rw [if_pos two]
    have first : (UInt8.ofNat (0xC0 + c.toNat / 64)).toNat = 0xC0 + c.toNat / 64 :=
      byte (by omega)
    refine ⟨_, _, rfl, ?_⟩
    rw [List.singleton_append, head_two (by omega) last.1, last.2, first, number (by omega)]
    rfl
  rw [if_neg two]
  by_cases three : c.toNat < 0x10000
  · rw [if_pos three]
    have first : (UInt8.ofNat (0xE0 + c.toNat / 4096)).toNat = 0xE0 + c.toNat / 4096 :=
      byte (by omega)
    have second : isSecond (UInt8.ofNat (0xE0 + c.toNat / 4096))
        (UInt8.ofNat (0x80 + c.toNat / 64 % 64)) = true := by
      rw [isSecond_iff, first, byte (by omega)]
      omega
    refine ⟨_, _, rfl, ?_⟩
    rw [List.cons_append, List.singleton_append, head_three (by omega) second last.1, first,
      middle.2, last.2, number (by omega)]
    rfl
  rw [if_neg three]
  have first : (UInt8.ofNat (0xF0 + c.toNat / 262144)).toNat = 0xF0 + c.toNat / 262144 :=
    byte (by omega)
  have second : isSecond (UInt8.ofNat (0xF0 + c.toNat / 262144))
      (UInt8.ofNat (0x80 + c.toNat / 4096 % 64)) = true := by
    rw [isSecond_iff, first, byte (by omega)]
    omega
  refine ⟨_, _, rfl, ?_⟩
  rw [List.cons_append, List.cons_append, List.singleton_append,
    head_four (by omega) second middle.1 last.1, first, (isTail_of_mod (c.toNat / 4096)).2,
    middle.2, last.2, number (by omega)]
  rfl

/-- The bytes of a text that starts with a character start with those of the character. -/
theorem encode_cons (c : Char) (text : Text) : encode (c :: text) = encodeChar c ++ encode text :=
  rfl

/-- The bytes of a text behind another come behind the bytes of that. -/
theorem encode_append (text rest : Text) : encode (text ++ rest) = encode text ++ encode rest :=
  List.flatMap_append

/-- The bytes of texts, one behind another, are those of each in turn. -/
theorem encode_flatten (texts : List Text) :
    encode texts.flatten = (texts.map encode).flatten := by
  induction texts with
  | nil => rfl
  | cons text rest ih => rw [List.flatten_cons, encode_append, ih, List.map_cons, List.flatten_cons]

/-- The bytes that write a text are read as it. -/
theorem decodeFrom_encode (text : Text) (index : Nat) :
    decodeFrom index (encode text) = .ok text := by
  induction text generalizing index with
  | nil => rw [show encode [] = [] from rfl, decodeFrom]
  | cons c text ih =>
    obtain ⟨first, more, bytes, read⟩ := head_encodeChar c (encode text)
    rw [encode_cons, bytes, List.cons_append, decodeFrom, read]
    simp only [List.drop_left]
    rw [ih]
    rfl

/-- The bytes that write a text are read as it without any replacement. -/
theorem decodeLossy_encode (text : Text) : decodeLossy (encode text) = text := by
  induction text with
  | nil => rw [show encode [] = [] from rfl, decodeLossy]
  | cons c text ih =>
    obtain ⟨first, more, bytes, read⟩ := head_encodeChar c (encode text)
    rw [encode_cons, bytes, List.cons_append, decodeLossy, read]
    simp only [List.drop_left]
    rw [ih]

/-- The bytes that are read as a text write it. -/
theorem encode_of_decodeFrom {index : Nat} {bytes : Bytes} {text : Text}
    (read : decodeFrom index bytes = .ok text) : encode text = bytes := by
  fun_induction decodeFrom index bytes generalizing text with
  | case1 =>
    obtain rfl : [] = text := Except.ok.inj read
    rfl
  | case2 index first rest c more char ih =>
    cases after : decodeFrom (index + 1 + more) (rest.drop more) with
    | error fault =>
      rw [after] at read
      contradiction
    | ok tail =>
      rw [after] at read
      obtain rfl : c :: tail = text := Except.ok.inj read
      rw [encode_cons, encodeChar_of_head char, ih after, List.cons_append,
        List.take_append_drop]
  | case3 => contradiction
  | case4 => contradiction

/-- The bytes that are read as a text are exactly those that write it. -/
theorem decode_eq_ok_iff {bytes : Bytes} {text : Text} :
    decode bytes = .ok text ↔ encode text = bytes := by
  constructor
  · exact encode_of_decodeFrom
  · intro written
    rw [← written]
    exact decodeFrom_encode text 0

/-- Texts with the same bytes are the same. -/
theorem encode_inj {left right : Text} : encode left = encode right ↔ left = right := by
  constructor
  · intro same
    have read := decode_eq_ok_iff.mpr same
    rw [decode_eq_ok_iff.mpr rfl] at read
    exact (Except.ok.inj read).symm
  · intro same
    rw [same]

/-- A character of ASCII is written by its number alone, and any other without a byte of ASCII. -/
theorem encodeChar_cases (c : Char) :
    (encodeChar c = [UInt8.ofNat c.toNat] ∧ c.toNat < 0x80) ∨
      (encodeChar c ≠ [] ∧ ∀ b ∈ encodeChar c, 0x80 ≤ b.toNat) := by
  have limit : c.toNat < 0x110000 := by
    rcases c.valid with below | ⟨-, below⟩
    · exact Nat.lt_trans below (by decide)
    · exact below
  have high {n : Nat} (low : 0x80 ≤ n) (small : n < 0x100) : 0x80 ≤ (UInt8.ofNat n).toNat := by
    rwa [UInt8.toNat_ofNat_of_lt' small]
  unfold encodeChar
  dsimp only
  split
  · exact .inl ⟨rfl, by assumption⟩
  · right
    split
    · exact ⟨by simp, by simp only [List.forall_mem_cons]; grind⟩
    · split
      · exact ⟨by simp, by simp only [List.forall_mem_cons]; grind⟩
      · exact ⟨by simp, by simp only [List.forall_mem_cons]; grind⟩

/-- The last byte that writes a character is its number, or none of ASCII. -/
theorem getLast?_encodeChar (c : Char) : ∃ last, (encodeChar c).getLast? = some last ∧
    (last.toNat = c.toNat ∨ 0x80 ≤ last.toNat) := by
  rcases encodeChar_cases c with ⟨single, ascii⟩ | ⟨filled, wide⟩
  · refine ⟨UInt8.ofNat c.toNat, ?_, .inl (UInt8.toNat_ofNat_of_lt' ?_)⟩
    · rw [single]
      rfl
    · exact Nat.lt_trans ascii (by decide)
  · exact ⟨_, List.getLast?_eq_some_getLast filled, .inr (wide _ (List.getLast_mem filled))⟩

/-- A text of which the bytes end in that of an ASCII character ends in this character. -/
theorem getLast?_of_encode {text : Text} {b : UInt8} (final : (encode text).getLast? = some b)
    (ascii : b.toNat < 0x80) : text.getLast? = some (Char.ofNat b.toNat) := by
  cases written : text.getLast? with
  | none =>
    rw [List.getLast?_eq_none_iff.mp written] at final
    contradiction
  | some c =>
    obtain ⟨front, rfl⟩ := List.getLast?_eq_some_iff.mp written
    have bytes : encode (front ++ [c]) = encode front ++ encodeChar c := by
      simp [encode]
    obtain ⟨last, ends, number⟩ := getLast?_encodeChar c
    rw [bytes, List.getLast?_append, ends] at final
    obtain rfl : last = b := Option.some.inj final
    rcases number with same | wide
    · rw [same, Char.ofNat_toNat]
    · exact absurd ascii (Nat.not_lt.mpr wide)

end LicenseHeader.Utf8
