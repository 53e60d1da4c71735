import LicenseHeader.Header.Normalize
import LicenseHeader.Proofs.Header.LeadingComment
import LicenseHeader.Proofs.Header.Preamble

/-!
# Normal forms

A text has a normal form of its own exactly when the canonical header does not follow its preamble
(`normalize_eq_some_iff`), and a normal form is left alone. `IsRebuilt` says what a normal form
keeps of a text: everything but one leading comment and the line breaks around it.
-/

namespace LicenseHeader

/-- A text rebuilt around a header that it does not have is another text. -/
theorem compose_ne {style : Style} {text : Text} (body : Text)
    (missing : ¬ style.header <+: (Preamble.split style text).2) :
    (Preamble.split style text).1.compose style.header body ≠ text := by
  intro same
  have again := Preamble.split_compose style text body
  rw [same] at again
  apply missing
  rw [again]
  exact List.prefix_append style.header body

/-- A text is rebuilt exactly when the header does not follow its preamble. -/
theorem normalize_eq_some_iff {style : Style} {text new : Text} :
    normalize style text = some new ↔
      ¬ style.header <+: (Preamble.split style text).2 ∧
        new = (Preamble.split style text).1.compose style.header
          (bodyOf style (Preamble.split style text).2) := by
  unfold normalize
  simp only [List.isPrefixOf_iff_prefix]
  by_cases there : style.header <+: (Preamble.split style text).2
  · rw [if_pos there]
    exact ⟨fun made => by contradiction, fun both => absurd there both.1⟩
  · rw [if_neg there, if_neg (compose_ne _ there), Option.some.injEq]
    exact ⟨fun made => ⟨there, made.symm⟩, fun both => both.2.symm⟩

/-- A text that starts with its preamble and the header has no other normal form. -/
theorem normalize_of_prefix {style : Style} {text : Text}
    (there : style.header <+: (Preamble.split style text).2) : normalize style text = none := by
  cases made : normalize style text with
  | none => rfl
  | some new => exact absurd there (normalize_eq_some_iff.mp made).1

/-- A text without another normal form has the header behind its preamble. -/
theorem header_prefix_of_normalize {style : Style} {text : Text}
    (canonical : normalize style text = none) : style.header <+: (Preamble.split style text).2 := by
  by_cases there : style.header <+: (Preamble.split style text).2
  · exact there
  · rw [normalize_eq_some_iff.mpr ⟨there, rfl⟩] at canonical
    contradiction

/-- Whether the header follows what a text has in front. -/
def HasHeader (style : Style) (text : Text) : Prop :=
  ∃ mark interpreter body, Preamble.Fronts style text mark interpreter (style.header ++ body)

/-- The header follows what a text has in front exactly when it starts what a split leaves. -/
theorem hasHeader_iff {style : Style} {text : Text} :
    HasHeader style text ↔ style.header <+: (Preamble.split style text).2 := by
  have fronts := Preamble.fronts_split style text
  constructor
  · rintro ⟨mark, interpreter, body, given⟩
    obtain ⟨-, -, rest⟩ := given.unique fronts
    exact ⟨body, rest⟩
  · rintro ⟨body, rest⟩
    rw [← rest] at fronts
    exact ⟨_, _, body, fronts⟩

/-- A text has no other normal form exactly when it has the header. -/
theorem normalize_eq_none_iff {style : Style} {text : Text} :
    normalize style text = none ↔ HasHeader style text :=
  ⟨fun canonical => hasHeader_iff.mpr (header_prefix_of_normalize canonical),
    fun there => normalize_of_prefix (hasHeader_iff.mp there)⟩

/-- A normal form has the header behind its preamble. -/
theorem header_prefix_of_made {style : Style} {text new : Text}
    (made : normalize style text = some new) : style.header <+: (Preamble.split style new).2 := by
  obtain ⟨-, rfl⟩ := normalize_eq_some_iff.mp made
  rw [Preamble.split_compose]
  exact List.prefix_append style.header _

/-- A normal form is its own normal form. -/
theorem normalize_of_normalize {style : Style} {text new : Text}
    (made : normalize style text = some new) : normalize style new = none := by
  obtain ⟨-, rfl⟩ := normalize_eq_some_iff.mp made
  apply normalize_of_prefix
  rw [Preamble.split_compose]
  exact List.prefix_append style.header _

/-- The normal form of a script whose lines end with carriage returns stays as it is. -/
theorem normalize_of_normalize_script :
    normalize .sharp "\uFEFF#!/bin/sh\r# old\r\rx = 1\r".toList =
        some ("\uFEFF#!/bin/sh\r".toList ++ Style.sharp.header ++ "x = 1\r".toList) ∧
      normalize .sharp ("\uFEFF#!/bin/sh\r".toList ++ Style.sharp.header ++ "x = 1\r".toList) =
        none := by
  have made : normalize .sharp "\uFEFF#!/bin/sh\r# old\r\rx = 1\r".toList =
      some ("\uFEFF#!/bin/sh\r".toList ++ Style.sharp.header ++ "x = 1\r".toList) := by
    decide +kernel
  exact ⟨made, normalize_of_normalize made⟩

/-- Whether `removed` is what stripping takes out in front of `body`: the line breaks there, and
between them the leading comment if there is one. -/
inductive IsRemoved (style : Style) : Text → Text → Prop where
  /-- There are line breaks and no comment. -/
  | breaks {gap body : Text} (blank : ∀ c ∈ gap, Text.isBreak c = true)
      (bare : ∀ comment after, body = comment ++ after → ¬ Comment.Leads style comment after)
      (apart : ∀ c ∈ body.head?, Text.isBreak c = false) : IsRemoved style gap body
  /-- There is one comment, and there are line breaks around it. -/
  | comment {before comment behind body : Text} (above : ∀ c ∈ before, Text.isBreak c = true)
      (leads : Comment.Leads style comment (behind ++ body))
      (below : ∀ c ∈ behind, Text.isBreak c = true)
      (apart : ∀ c ∈ body.head?, Text.isBreak c = false) :
      IsRemoved style (before ++ comment ++ behind) body

/-- Whether `new` is a text with the header of the style in the place of its leading comment, behind
what it has in front. -/
def IsRebuilt (style : Style) (text new : Text) : Prop :=
  ∃ mark interpreter feed removed body,
    Preamble.Fronts style text mark interpreter (removed ++ body) ∧
      Preamble.Completes interpreter (removed ++ body) feed ∧ IsRemoved style removed body ∧
      new = mark ++ interpreter ++ feed ++ style.header ++ body

/-- The body of a text is what stripping leaves of it. -/
theorem isRemoved_bodyOf (style : Style) (text : Text) :
    ∃ removed, text = removed ++ bodyOf style text ∧
      IsRemoved style removed (bodyOf style text) := by
  obtain ⟨before, whole, above, apart⟩ := Text.exists_breaks text
  rcases Comment.strip_cases style text with ⟨comment, after, start, leads, stripped⟩ | stripped
  · have body : bodyOf style text = Text.dropBreaks after := by
      unfold bodyOf
      rw [stripped]
      exact Text.dropBreaks_dropBreaks after
    obtain ⟨behind, rest, below, first⟩ := Text.exists_breaks after
    rw [body]
    refine ⟨before ++ comment ++ behind, ?_, .comment above (rest ▸ leads) below first⟩
    calc
      text = before ++ (comment ++ after) := by rw [← start, ← whole]
      _ = before ++ (comment ++ (behind ++ Text.dropBreaks after)) := by rw [← rest]
      _ = _ := by simp only [List.append_assoc]
  · have body : bodyOf style text = Text.dropBreaks text := by
      unfold bodyOf
      rw [stripped]
      exact Text.dropBreaks_dropBreaks text
    rw [body]
    exact ⟨before, whole, .breaks above (fun _ _ => Comment.not_leads_of_strip stripped) apart⟩

/-- A normal form is the text with the header in the place of its leading comment. -/
theorem isRebuilt_of_normalize {style : Style} {text new : Text}
    (made : normalize style text = some new) : IsRebuilt style text new := by
  obtain ⟨-, rfl⟩ := normalize_eq_some_iff.mp made
  have fronts := Preamble.fronts_split style text
  obtain ⟨removed, whole, taken⟩ := isRemoved_bodyOf style (Preamble.split style text).2
  obtain ⟨feed, ended, completes⟩ :=
    Preamble.completes_interpreter style (Preamble.splitMark text).2
  let mark := if (Preamble.split style text).1.mark then [Preamble.byteOrderMark] else []
  let interpreter := (Preamble.split style text).1.interpreter
  let body := bodyOf style (Preamble.split style text).2
  have parts : (Preamble.split style text).1.compose style.header body =
      mark ++ interpreter ++ feed ++ style.header ++ body := by
    calc
      (Preamble.split style text).1.compose style.header body =
          mark ++ Preamble.terminated interpreter ++ style.header ++ body := rfl
      _ = mark ++ (interpreter ++ feed) ++ style.header ++ body := by
        rw [show Preamble.terminated interpreter = interpreter ++ feed from ended]
      _ = _ := by rw [List.append_assoc mark interpreter feed]
  refine ⟨mark, interpreter, feed, removed, body, ?_, ?_, taken, parts⟩
  · rw [← whole]
    exact fronts
  · rw [← whole]
    exact completes

/-- A script with an old string keeps its first line and its code. -/
theorem isRebuilt_of_normalize_script :
    normalize .sharp "#!/bin/sh\n\n'''old'''\r\nx = 1\n# more\n".toList =
        some ("#!/bin/sh\n".toList ++ Style.sharp.header ++ "x = 1\n# more\n".toList) ∧
      IsRebuilt .sharp "#!/bin/sh\n\n'''old'''\r\nx = 1\n# more\n".toList
        ("#!/bin/sh\n".toList ++ Style.sharp.header ++ "x = 1\n# more\n".toList) := by
  have made : normalize .sharp "#!/bin/sh\n\n'''old'''\r\nx = 1\n# more\n".toList =
      some ("#!/bin/sh\n".toList ++ Style.sharp.header ++ "x = 1\n# more\n".toList) := by
    decide +kernel
  exact ⟨made, isRebuilt_of_normalize made⟩

end LicenseHeader
