import LicenseHeader.Text.Number

/-!
# Log levels

How much is logged. A level is named by a word, in letters of either case, or by a number.
-/

namespace LicenseHeader.Log

/-- How much is logged, from least to most. -/
inductive Level where
  /-- Errors only. -/
  | error
  /-- Also warnings. -/
  | warn
  /-- Also what happens in general. -/
  | info
  /-- Also what happens in detail. -/
  | debug
  /-- Everything. -/
  | trace
  deriving DecidableEq, Repr

namespace Level

/-- The word for a level. -/
def name : Level → String
  | error => "error"
  | warn => "warn"
  | info => "info"
  | debug => "debug"
  | trace => "trace"

/-- The place of a level among all. -/
def rank : Level → Nat
  | error => 1
  | warn => 2
  | info => 3
  | debug => 4
  | trace => 5

/-- Every level. -/
def all : List Level := [error, warn, info, debug, trace]

/-- The level that the flags of the command line ask for. -/
def ofFlags (quiet : Bool) (verbose : Nat) : Level :=
  if quiet then error
  else
    match verbose with
    | 0 => warn
    | 1 => info
    | 2 => debug
    | _ => trace

end Level

/-- The level that a word or a number names; `some none` stands for none at all. -/
def levelOf? (word : Text) : Option (Option Level) :=
  let lower := word.map Char.toLower
  let number := Text.number? word
  if lower = "off".toList || number = some 0 then some none
  else
    (Level.all.find? fun level => level.name.toList == lower || number == some level.rank).map some

end LicenseHeader.Log
