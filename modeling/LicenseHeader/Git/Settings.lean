import LicenseHeader.Text.Number

/-!
# Settings of repositories

A setting has a name and possibly a value, which are bytes; the name is put together from those of
its section, its subsection and itself. Of several settings of one name the last one counts. A value
may be read as a flag or as a number.
-/

namespace LicenseHeader

/-- A setting. -/
structure Setting where
  /-- The names of its section, of its subsection if there is one, and its own, with dots between
  them. -/
  name : Bytes
  /-- Its value, if one is written. -/
  value : Option Bytes
  deriving DecidableEq, Repr

namespace Setting

/-- The setting of a name that counts, if there is any. -/
def find? (settings : List Setting) (name : String) : Option Setting :=
  settings.reverse.find? fun setting => setting.name = Ascii.bytes name

/-- What a letter after a number multiplies it by. -/
def multiplier? (suffix : Bytes) : Option Int :=
  match suffix.map Ascii.lower with
  | [] => some 1
  | [letter] =>
    if letter = Ascii.byte 'k' then some 1024
    else if letter = Ascii.byte 'm' then some 1048576
    else if letter = Ascii.byte 'g' then some 1073741824
    else none
  | _ => none

/-- The number that a text writes: a sign, digits to the base ten, eight or sixteen, and a letter
for thousands, millions or billions. Numbers of 64 binary digits are read, of which only those of 32
are numbers here. -/
def numberOf? (text : Bytes) : Option Int := do
  let (number, suffix) ← Ascii.integer? none text
  let factor ← multiplier? suffix
  let product := Int.bmod (number * factor) 0x10000000000000000
  if product < -0x80000000 || 0x80000000 ≤ product then none else some product

/-- The value of a setting as a number. -/
def number? (setting : Setting) : Option Int := setting.value.bind numberOf?

/-- The value of a setting as a flag. A setting without a value is set; a number sets it when it is
not zero. -/
def flag? (setting : Setting) : Option Bool :=
  match setting.value with
  | none => some true
  | some value =>
    let word := Ascii.lowered value
    if ["true", "yes", "on"].any fun name => Ascii.bytes name = word then some true
    else if ["false", "no", "off", ""].any fun name => Ascii.bytes name = word then some false
    else (numberOf? value).map fun number => number ≠ 0

/-- The value of a setting as it is told. -/
def shown (setting : Setting) : String :=
  match setting.value with
  | none => "(null)"
  | some value => String.ofList (Utf8.decodeLossy value)

end Setting

end LicenseHeader
