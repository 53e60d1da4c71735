import LicenseHeader.Log.FieldPattern
import LicenseHeader.Log.Level

/-!
# Directives of a log filter

A directive is a level, a target, or both with an equals sign between, where brackets may stand
after the target: in them the name of a span, and in braces a field and what its value has to be.
`Directive.parse?` reads one character after the other.
-/

namespace LicenseHeader.Log

/-- What a directive asks of a field. -/
structure FieldDemand where
  /-- The name of the field. -/
  name : Text
  /-- Whether it also asks for a value. -/
  hasValue : Bool
  deriving DecidableEq, Repr

/-- What is logged from one part of the program. -/
structure Directive where
  /-- The start of the names of the parts meant; the empty text means all. -/
  target : Text
  /-- The name of the spans meant, if not all that happens is meant. -/
  span : Option Text
  /-- The field that what happens has to have, if any. -/
  field : Option FieldDemand
  /-- The highest level logged, if any. -/
  level : Option Level
  deriving DecidableEq, Repr

/-- What of a directive is being read, with the place where it started. -/
inductive DirectiveState where
  /-- Nothing yet. -/
  | start
  /-- A level or a target. -/
  | word
  /-- The name of a span. -/
  | span (start : Nat)
  /-- A field. -/
  | field (start : Nat)
  /-- The bracket after a field. -/
  | afterField
  /-- The equals sign after a bracket. -/
  | afterSpan
  /-- A level. -/
  | level (start : Nat)
  deriving DecidableEq, Repr

namespace FieldDemand

/-- What a text between braces asks for: a name, and after an equals sign a pattern for the
value. -/
def parse? (text : Text) : Option FieldDemand :=
  let name := text.takeWhile (· ≠ '=')
  match text.drop name.length with
  | [] => if text.isEmpty then none else some ⟨name, false⟩
  | _ :: rest =>
    if FieldPattern.isValue (rest.takeWhile (· ≠ '=')) then some ⟨name, true⟩ else none

end FieldDemand

namespace Directive

/-- The directive that asks for everything. -/
def everything : Directive := ⟨[], none, none, some .trace⟩

/-- Whether a character can start a directive without brackets in front. -/
def startsWord (c : Char) : Bool := c = '-' || c = ':' || c = '_' || Text.isAlphanumeric c

/-- A directive and what comes next after one more character, which stands at a place. What has been
read is taken from the places in the whole text. -/
def step (whole : Text) (read : DirectiveState × Directive) (place : Nat) (c : Char) :
    Option (DirectiveState × Directive) :=
  let (state, directive) := read
  let since (start : Nat) : Text := (whole.take place).drop start
  match state with
  | .start =>
    if c = '[' then some (.span (place + 1), directive)
    else if startsWord c then some (.word, directive)
    else none
  | .word =>
    if c = '=' then some (.level (place + 1), { directive with target := since 0 })
    else if c = '[' then some (.span (place + 1), { directive with target := since 0 })
    else some (state, directive)
  | .span start =>
    let name := since start
    if c = ']' then some (.afterSpan, { directive with span := some name })
    else if c = '\x7b' then
      some (.field (place + 1), { directive with span := if name.isEmpty then none else some name })
    else some (state, directive)
  | .field start =>
    if c = '\x7d' then
      (FieldDemand.parse? (since start)).map fun demand =>
        (.afterField, { directive with field := some demand })
    else some (state, directive)
  | .afterField => if c = ']' then some (.afterSpan, directive) else none
  | .afterSpan => if c = '=' then some (.level (place + 1), directive) else none
  | .level _ => some (state, directive)

/-- A directive and what comes next after more characters, of which the first stands at a place. -/
def steps (whole : Text) (read : DirectiveState × Directive) (place : Nat) :
    Text → Option (DirectiveState × Directive)
  | [] => some read
  | c :: rest => (step whole read place c).bind (steps whole · (place + 1) rest)

/-- The directive when all has been read. A word alone is a level or else a target, and a target
without a level asks for everything. -/
def finish (whole : Text) (read : DirectiveState × Directive) : Option Directive :=
  match read with
  | (.word, directive) =>
    match levelOf? whole with
    | some level => some { directive with level := level }
    | none => some { directive with target := whole }
  | (.level start, directive) =>
    let word := whole.drop start
    if word.isEmpty then some directive
    else (levelOf? word).map fun level => { directive with level := level }
  | (.afterSpan, directive) => some directive
  | _ => none

/-- The directive that a text writes. White space around it is not read, but the places are those in
the whole text, so that white space in front moves what is taken from them. -/
def parse? (text : Text) : Option Directive :=
  let trimmed := ((text.dropWhile Text.isBlank).reverse.dropWhile Text.isBlank).reverse
  (steps text (.start, everything) 0 trimmed).bind (finish text)

/-- Whether a directive decides about what happens outside of spans. -/
def decides (directive : Directive) : Bool :=
  directive.span.isNone && !(directive.field.map (·.hasValue)).getD false

end Directive

end LicenseHeader.Log
