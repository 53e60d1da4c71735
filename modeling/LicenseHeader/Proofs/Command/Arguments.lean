import LicenseHeader.Command.Arguments
import LicenseHeader.Proofs.Result

/-!
# What flags ask for

Every flag changes only what it is for (`Arguments.KeepsSwitches`). So the word for a check in front
of a command line that is right changes nothing in what it asks for but this, unless the command
line asks for a check itself (`Arguments.parse_check`), and a command line that asks both for less
output and for more is wrong (`Arguments.verbose_of_quiet`).
-/

namespace LicenseHeader

/-- The word that asks for a check. -/
def Flag.checkWord : Bytes := Ascii.bytes "--check"

/-- The word for a check is a flag without a value. -/
theorem Occurrence.ofWords_check (words : List Bytes) :
    ofWords none (Flag.checkWord :: words) = .flag .check none :: ofWords none words := rfl

namespace Arguments

variable {arguments after : Arguments} {flag : Flag} {seen all : List Flag}

/-- The arguments with a check asked for. -/
def checking (arguments : Arguments) : Arguments := { arguments with check := true }

/-- The arguments with a flag and its value, if it has one. -/
def set (arguments : Arguments) (flag : Flag) : Option Bytes → Except Stop Arguments
  | none => arguments.setFlag flag
  | some value => arguments.setValue value flag

/-- A path on a command line is collected, and then the rest is. -/
theorem collect_path (arguments : Arguments) (seen : List Flag) (word : Bytes)
    (rest : List Occurrence) : collect arguments seen (.path word :: rest) =
      (pathOf word).bind fun path =>
        collect { arguments with paths := arguments.paths ++ [path] } seen rest := rfl

/-- A flag on a command line is set if it may come again, and then the rest is collected. -/
theorem collect_flag (arguments : Arguments) (seen : List Flag) (flag : Flag)
    (value : Option Bytes) (rest : List Occurrence) :
    collect arguments seen (.flag flag value :: rest) =
      if (seen.contains flag && !flag.repeats) = true then .error .usage
      else (arguments.set flag value).bind fun after => collect after (flag :: seen) rest := by
  rw [collect]
  by_cases again : (seen.contains flag && !flag.repeats) = true
  · rw [if_pos again, if_pos again]
    rfl
  · rw [if_neg again, if_neg again]
    cases value <;> rfl

/-- A flag is set in the same way when a check is asked for. -/
theorem set_checking (arguments : Arguments) (flag : Flag) (value : Option Bytes) :
    arguments.checking.set flag value = (arguments.set flag value).map checking := by
  cases value with
  | none => cases flag <;> rfl
  | some value =>
    change arguments.checking.setValue value flag = (arguments.setValue value flag).map checking
    unfold setValue
    cases flag with
    | root | savePatch | config | report => cases pathOf value <;> rfl
    | exclude => cases textOf value <;> rfl
    | colours =>
      cases textOf value with
      | error stop => rfl
      | ok text =>
        simp only [bind, Except.bind]
        cases ColourMode.ofName? text <;> rfl
    | _ => rfl

/-- Whether a flag has changed no switch but its own: the one for a check, and those for less and
for more output. -/
structure KeepsSwitches (flag : Flag) (before after : Arguments) : Prop where
  /-- Only its own flag asks for a check. -/
  check : flag ≠ .check → after.check = before.check
  /-- Only its own flag asks for less output. -/
  quiet : flag ≠ .quiet → after.quiet = before.quiet
  /-- Only its own flag asks for more output. -/
  verbose : flag ≠ .verbose → after.verbose = before.verbose

/-- A flag without a value changes no switch but its own. -/
theorem keepsSwitches_of_setFlag (made : arguments.setFlag flag = .ok after) :
    KeepsSwitches flag arguments after := by
  unfold setFlag at made
  cases flag with
  | noRepository | check | showPatch | noConfig | verbose | quiet | colours =>
    obtain rfl := Except.ok.inj made
    constructor <;> simp
  | _ => contradiction

/-- A flag with a value changes no switch. -/
theorem keepsSwitches_of_setValue {value : Bytes}
    (made : arguments.setValue value flag = .ok after) : KeepsSwitches flag arguments after := by
  unfold setValue at made
  cases flag with
  | root | savePatch | config | report | exclude =>
    obtain ⟨given, -, whole⟩ := ok_of_bind made
    obtain rfl := Except.ok.inj whole
    exact ⟨fun _ => rfl, fun _ => rfl, fun _ => rfl⟩
  | colours =>
    obtain ⟨text, -, chosen⟩ := ok_of_bind made
    cases named : ColourMode.ofName? text with
    | none =>
      rw [named] at chosen
      contradiction
    | some mode =>
      rw [named] at chosen
      obtain rfl := Except.ok.inj chosen
      exact ⟨fun _ => rfl, fun _ => rfl, fun _ => rfl⟩
  | _ => contradiction

/-- A flag changes no switch but its own, with a value or without. -/
theorem keepsSwitches_of_set {value : Option Bytes} (made : arguments.set flag value = .ok after) :
    KeepsSwitches flag arguments after := by
  cases value with
  | none => exact keepsSwitches_of_setFlag made
  | some value => exact keepsSwitches_of_setValue made

/-- What stands on a command line is collected in the same way after a check has been asked for,
unless this is asked for again. -/
theorem collect_checking {occurrences : List Occurrence} (fresh : arguments.check = false)
    (collected : collect arguments seen occurrences = .ok (after, all)) :
    (after.check = false ∧ collect arguments.checking (seen ++ [.check]) occurrences =
        .ok (after.checking, all ++ [.check])) ∨
      collect arguments.checking (seen ++ [.check]) occurrences = .error .usage := by
  -- The check was asked for first, so that it stays behind all flags that come later.
  induction occurrences generalizing arguments seen with
  | nil =>
    obtain ⟨rfl, rfl⟩ := Prod.mk.inj (Except.ok.inj collected)
    exact .inl ⟨fresh, rfl⟩
  | cons occurrence rest ih =>
    cases occurrence with
    | fault => contradiction
    | path word =>
      rw [collect_path] at collected ⊢
      obtain ⟨path, read, behind⟩ := ok_of_bind collected
      have still : ({ arguments with paths := arguments.paths ++ [path] } : Arguments).check =
          false := fresh
      rw [read]
      exact ih still behind
    | flag flag value =>
      rw [collect_flag] at collected ⊢
      by_cases same : flag = .check
      · right
        rw [if_pos (by simp [same, Flag.repeats])]
      · have seen_iff : (seen ++ [Flag.check]).contains flag = seen.contains flag := by
          simp [same]
        rw [seen_iff]
        split at collected
        · contradiction
        next first =>
        obtain ⟨next, made, behind⟩ := ok_of_bind collected
        rw [if_neg first, set_checking, made]
        exact ih (((keepsSwitches_of_set made).check same).trans fresh) behind

/-- Flags that go together do so when a check is asked for. -/
theorem consistent_concat_check (together : consistent seen = true) :
    consistent (seen ++ [.check]) = true := by
  unfold consistent at together ⊢
  simp only [Bool.and_eq_true] at together ⊢
  obtain ⟨⟨-, configured⟩, loud⟩ := together
  refine ⟨⟨by simp, ?_⟩, ?_⟩
  · simpa using configured
  · simpa using loud

/-- The words of a command line are collected, and the flags have to go together. -/
theorem parse_eq (words : List Bytes) : parse words =
    (collect empty [] (Occurrence.ofWords none words)).bind fun pair =>
      if consistent pair.2 = true then .ok pair.1 else .error .usage := rfl

/-- A command line that is right asks with the word for a check in front for a check and otherwise
for the same, or is wrong because it asks for a check itself. -/
theorem parse_check {words : List Bytes} (given : parse words = .ok arguments) :
    (arguments.check = false ∧ parse (Flag.checkWord :: words) = .ok arguments.checking) ∨
      parse (Flag.checkWord :: words) = .error .usage := by
  have first : parse (Flag.checkWord :: words) =
      (collect empty.checking [.check] (Occurrence.ofWords none words)).bind fun pair =>
        if consistent pair.2 = true then .ok pair.1 else .error .usage := by
    rw [parse_eq, Occurrence.ofWords_check, collect_flag]
    rfl
  rw [parse_eq] at given
  rw [first]
  obtain ⟨⟨after, all⟩, collected, checked⟩ := ok_of_bind given
  split at checked
  next together =>
    obtain rfl : after = arguments := Except.ok.inj checked
    rcases collect_checking rfl collected with ⟨unchecked, again⟩ | wrong
    · rw [List.nil_append] at again
      rw [again]
      exact .inl ⟨unchecked, if_pos (consistent_concat_check together)⟩
    · rw [List.nil_append] at wrong
      rw [wrong]
      exact .inr rfl
  next => contradiction

/-- Whether the flags seen on a command line tell whether less or more output was asked for. -/
structure TellsLoudness (arguments : Arguments) (seen : List Flag) : Prop where
  /-- The flag for less output was seen if less was asked for. -/
  quiet : arguments.quiet = true → .quiet ∈ seen
  /-- The flag for more output was seen if more was asked for. -/
  verbose : arguments.verbose ≠ 0 → .verbose ∈ seen

/-- A flag that is set and seen is told of. -/
theorem TellsLoudness.set {value : Option Bytes} (tells : TellsLoudness arguments seen)
    (made : arguments.set flag value = .ok after) : TellsLoudness after (flag :: seen) := by
  have kept := keepsSwitches_of_set made
  constructor
  · intro silent
    by_cases same : flag = .quiet
    · exact same ▸ List.mem_cons_self
    · exact List.mem_cons_of_mem flag (tells.quiet (kept.quiet same ▸ silent))
  · intro loud
    by_cases same : flag = .verbose
    · exact same ▸ List.mem_cons_self
    · exact List.mem_cons_of_mem flag (tells.verbose (kept.verbose same ▸ loud))

/-- The flags on a whole command line tell whether less or more output was asked for. -/
theorem TellsLoudness.collect {occurrences : List Occurrence}
    (tells : TellsLoudness arguments seen)
    (collected : collect arguments seen occurrences = .ok (after, all)) :
    TellsLoudness after all := by
  induction occurrences generalizing arguments seen with
  | nil =>
    obtain ⟨rfl, rfl⟩ := Prod.mk.inj (Except.ok.inj collected)
    exact tells
  | cons occurrence rest ih =>
    cases occurrence with
    | fault => contradiction
    | path word =>
      rw [collect_path] at collected
      obtain ⟨path, -, behind⟩ := ok_of_bind collected
      have still : TellsLoudness { arguments with paths := arguments.paths ++ [path] } seen :=
        ⟨tells.quiet, tells.verbose⟩
      exact ih still behind
    | flag flag value =>
      rw [collect_flag] at collected
      split at collected
      · contradiction
      · obtain ⟨next, made, behind⟩ := ok_of_bind collected
        exact ih (tells.set made) behind

/-- A command line that is right does not ask for less output and for more. -/
theorem verbose_of_quiet {words : List Bytes} (given : parse words = .ok arguments)
    (silent : arguments.quiet = true) : arguments.verbose = 0 := by
  rw [parse_eq] at given
  obtain ⟨⟨after, all⟩, collected, checked⟩ := ok_of_bind given
  split at checked
  next together =>
    obtain rfl : after = arguments := Except.ok.inj checked
    have empty_tells : TellsLoudness empty [] :=
      ⟨fun absurdity => by contradiction, fun absurdity => absurd rfl absurdity⟩
    have tells := empty_tells.collect collected
    by_cases loud : after.verbose = 0
    · exact loud
    · unfold consistent at together
      simp [tells.quiet silent, tells.verbose loud] at together
  next => contradiction

end Arguments

end LicenseHeader
