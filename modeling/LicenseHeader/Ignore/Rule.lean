import LicenseHeader.Ignore.GlobReader
import LicenseHeader.Text.Blank

/-!
# Rules of ignore files

Every line of an ignore file is a rule, but for comments and lines that write none. The last rule
that matches a path decides about it.
-/

namespace LicenseHeader

/-- A line of an ignore file. -/
structure IgnoreRule where
  /-- Whether the rule keeps what it matches. -/
  keeps : Bool
  /-- Whether the rule matches only directories. -/
  onlyDirectories : Bool
  /-- The paths that the rule matches, relative to the directory of the file. -/
  glob : List GlobToken

namespace IgnoreRule

/-- A line without the white space at its end; one blank at the end that is escaped stays. -/
def trimLine (line : Text) : Text :=
  if ['\\', ' '].isSuffixOf line then line
  else (line.reverse.dropWhile Text.isBlank).reverse

/-- The text without the last character, if this is `c`. -/
def dropLastIf (c : Char) (text : Text) : Text :=
  if text.getLast? = some c then text.dropLast else text

/-- The text of a glob that means paths at any depth when it has no slash, and only what is in a
directory when it ends with two stars. -/
def anywhere (anchored : Bool) (body : Text) : Text :=
  let whole :=
    if anchored || body.contains '/' || body = "**".toList then body else "**/".toList ++ body
  if "/**".toList.isSuffixOf whole then whole ++ "/*".toList else whole

/-- The rule of a line after the mark for what is kept. -/
def ofBody (keeps anchored : Bool) (body : Text) : Option IgnoreRule :=
  let onlyDirectories := body.getLast? = some '/'
  let body := if onlyDirectories then dropLastIf '\\' body.dropLast else body
  (Glob.read (anywhere anchored body)).map (⟨keeps, onlyDirectories, ·⟩)

/-- The rule that a line writes, if it writes one. -/
def ofLine? (line : Text) : Option IgnoreRule :=
  if line.head? = some '#' then none
  else
    match trimLine line with
    | [] => none
    | '\\' :: '!' :: rest => ofBody false false ('!' :: rest)
    | '\\' :: '#' :: rest => ofBody false false ('#' :: rest)
    | '!' :: '/' :: rest => ofBody true true rest
    | '!' :: rest => ofBody true false rest
    | '/' :: rest => ofBody false true rest
    | body => ofBody false false body

/-- The lines of an ignore file up to the first one that is no text. A byte order mark in front of
the first line does not belong to it. -/
def linesOf (content : Bytes) : List Text :=
  let rec
    /-- The lines after `line`, the bytes of the line under way in reverse. -/
    split (line : Bytes) : Bytes → List Bytes
      | [] => if line.isEmpty then [] else [line.reverse]
      | b :: rest => if b = 0x0A then line.reverse :: split [] rest else split (b :: line) rest
  let texts := ((split [] content).map fun line => (Utf8.decode line).toOption).takeWhile (·.isSome)
  match texts.filterMap fun line => line.map Text.dropLastReturn with
  | [] => []
  | first :: more => first.dropWhile (· = '\uFEFF') :: more

/-- The rules of an ignore file. -/
def ofContent (content : Bytes) : List IgnoreRule := (linesOf content).filterMap ofLine?

/-- Whether a rule is about a path. -/
def isAbout (rule : IgnoreRule) (path : Bytes) (isDirectory : Bool) : Bool :=
  (!rule.onlyDirectories || isDirectory) && Glob.accepts rule.glob path

/-- What rules say about a path, if they say anything: whether it is ignored. -/
def verdict (rules : List IgnoreRule) (path : Bytes) (isDirectory : Bool) : Option Bool :=
  (rules.reverse.find? (·.isAbout path isDirectory)).map (!·.keeps)

end IgnoreRule

end LicenseHeader
