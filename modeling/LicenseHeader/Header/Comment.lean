import LicenseHeader.Style
import LicenseHeader.Text.Blank

/-!
# The comment that a text starts with

`strip` takes off the comment at the start of a text together with the line breaks around it. A
comment that is opened and never closed is no comment: the text stays whole, because a stale header
in the body does less harm than lost content. `Comment.strip_suffix` says that what is left is the
end of the text, so that nothing is taken out of its middle.
-/

namespace LicenseHeader

/-- What is left of a text whose leading comment was looked for. -/
structure Stripped where
  /-- Whether a comment was taken off. -/
  removed : Bool
  /-- The text that is left, without the line breaks in front. -/
  rest : Text
  deriving DecidableEq, Repr

namespace Stripped

/-- A text that starts with no comment. -/
def whole (text : Text) : Stripped := ⟨false, text⟩

/-- The text after a comment that was taken off. -/
def after (rest : Text) : Stripped := ⟨true, Text.dropBreaks rest⟩

end Stripped

namespace Comment

/-- The text after the first `closer` in `body`, or `text` as it is when `body` has no `closer`. -/
def stripClosed (closer body text : Text) : Stripped :=
  match Text.splitAt? closer body with
  | some (_, rest) => .after rest
  | none => .whole text

/-- Whether a line belongs to a run of line comments: it is blank, or `marker` starts it after the
white space in front. -/
def inRun (marker line : Text) : Bool :=
  (Text.dropBlanks line).isEmpty || marker.isPrefixOf (Text.dropBlanks line)

/-- The longest run of blank lines and line comments at the start, taken off. -/
def stripRun (marker text : Text) : Stripped :=
  let lines := Text.lines text
  if (lines.takeWhile (inRun marker)).isEmpty then .whole text
  else .after (lines.dropWhile (inRun marker)).flatten

/-- The leading comment of the block style: up to the first closer after the opener, or a run of
line comments. -/
def stripBlock (text : Text) : Stripped :=
  if "/*".toList.isPrefixOf text then stripClosed "*/".toList (text.drop 2) text
  else if "//".toList.isPrefixOf text then stripRun "//".toList text
  else .whole text

/-- The two quotes that delimit a triple-quoted string. -/
def tripleQuotes : List Text := ["\"\"\"".toList, "'''".toList]

/-- The leading comment of the sharp style: a string up to the next quote of the kind that opens it,
or a run of line comments. -/
def stripSharp (text : Text) : Stripped :=
  match tripleQuotes.find? (·.isPrefixOf text) with
  | some quote => stripClosed quote (text.drop quote.length) text
  | none => stripRun "#".toList text

/-- The text without its leading line breaks and the comment of the style that it then starts
with. -/
def strip (style : Style) (text : Text) : Stripped :=
  let start := Text.dropBreaks text
  if start.isEmpty then .whole start
  else
    match style with
    | .block => stripBlock start
    | .sharp => stripSharp start

/-- What is left after a closed comment is the end of a text that ends with the comment's body. -/
theorem stripClosed_suffix {closer body text : Text} (ends : body <:+ text) :
    (stripClosed closer body text).rest <:+ text := by
  unfold stripClosed
  split
  · rename_i before rest found
    have whole : rest <:+ body := ⟨before ++ closer, (Text.eq_of_splitAt? found).symm⟩
    exact (List.dropWhile_suffix _).trans (whole.trans ends)
  · exact List.suffix_rfl

/-- What is left after a run of lines is the end of the text. -/
theorem stripRun_suffix (marker text : Text) : (stripRun marker text).rest <:+ text := by
  unfold stripRun
  simp only
  split
  · exact List.suffix_rfl
  · refine (List.dropWhile_suffix _).trans ?_
    have whole := congrArg List.flatten
      (List.takeWhile_append_dropWhile (p := inRun marker) (l := Text.lines text))
    rw [List.flatten_append, Text.flatten_lines] at whole
    exact ⟨_, whole⟩

/-- What is left of a text is its end. -/
theorem strip_suffix (style : Style) (text : Text) : (strip style text).rest <:+ text := by
  have start : Text.dropBreaks text <:+ text := List.dropWhile_suffix _
  unfold strip
  simp only
  split
  · exact start
  · refine List.IsSuffix.trans ?_ start
    cases style with
    | block =>
      simp only [stripBlock]
      split
      · exact stripClosed_suffix (List.drop_suffix 2 _)
      · split
        · exact stripRun_suffix _ _
        · exact List.suffix_rfl
    | sharp =>
      simp only [stripSharp]
      split
      · exact stripClosed_suffix (List.drop_suffix _ _)
      · exact stripRun_suffix _ _

end Comment

end LicenseHeader
