import LicenseHeader.Git.Wildcard

/-!
# Ignore rules of work trees

An ignore file of a work tree is a list of rules about the paths below its directory. Most lines
write one rule; a line break that follows a backslash belongs to the rule. The last rule about a
path decides. A rule that keeps one plain path counts only when an earlier rule of its file may
leave this path out.
-/

namespace LicenseHeader

/-- A rule of an ignore file. -/
structure WorkTreeRule where
  /-- Whether the rule keeps what it matches. -/
  keeps : Bool
  /-- Whether the rule is about directories only. -/
  onlyDirectories : Bool
  /-- Whether the rule is about paths from the directory of its file on, and not about names. -/
  whole : Bool
  /-- Whether the rule has a wildcard that is not escaped. -/
  wild : Bool
  /-- Whether capital letters are matched as small ones. -/
  folded : Bool
  /-- What the rule matches, as it is written without its marks. -/
  pattern : Bytes
  /-- What the rule matches, if it can match anything. -/
  glob : Option (List GlobToken)

namespace WorkTreeRule

/-- Whether a byte ends a rule: white space that is no blank, tab or carriage return. -/
def endsRule (b : UInt8) : Bool :=
  Ascii.isSpace b && !(b = 0x20 || b = Ascii.byte '\t' || b = Ascii.byte '\r')

/-- A text up to the first byte that ends a rule and is not escaped, and the rest of the text. -/
def splitRule (escaped : Bool) : Bytes → Bytes × Bytes
  | [] => ([], [])
  | b :: rest =>
    if endsRule b && !escaped then ([], b :: rest)
    else
      let more := splitRule (b = Ascii.byte '\\' && !escaped) rest
      (b :: more.1, more.2)

/-- A text after its first line and after the line breaks that follow it. -/
def afterLine (text : Bytes) : Bytes :=
  (text.dropWhile (· ≠ Ascii.byte '\n')).dropWhile fun b =>
    b = Ascii.byte '\n' || b = Ascii.byte '\r'

/-- Whether a text has a wildcard that is not escaped. -/
def hasWildcard (escaped : Bool) : Bytes → Bool
  | [] => false
  | b :: rest =>
    if b = Ascii.byte '\\' && !escaped then hasWildcard true rest
    else
      (!escaped && (b = Ascii.byte '*' || b = Ascii.byte '?' || b = Ascii.byte '[')) ||
        hasWildcard false rest

/-- A text in reverse without the blanks at its end; one that is escaped stays. -/
def dropBlanksEnd : Bytes → Bytes
  | [] => []
  | b :: before =>
    let backslashes := (before.takeWhile (· = Ascii.byte '\\')).length
    if (b = 0x20 || b = Ascii.byte '\t') && backslashes % 2 = 0 then dropBlanksEnd before
    else b :: before

/-- A text without the backslashes that escape white space, and without one at its end. -/
def unescapeSpaces : Bytes → Bytes
  | [] => []
  | b :: rest =>
    if b = Ascii.byte '\\' then
      match rest with
      | [] => []
      | c :: rest =>
        if Ascii.isSpace c then c :: unescapeSpaces rest else b :: c :: unescapeSpaces rest
    else b :: unescapeSpaces rest

/-- The text without the byte at its end, if this is `b`. -/
def dropLastIf (b : UInt8) (text : Bytes) : Bytes :=
  if text.getLast? = some b then text.dropLast else text

/-- The rule that a text writes, if it writes one; `folded` says that capital letters are matched as
small ones. -/
def ofText? (folded : Bool) (text : Bytes) : Option WorkTreeRule :=
  let keeps := text.head? = some (Ascii.byte '!')
  let marked := if keeps then text.drop 1 else text
  let slashes := marked.count Path.slash
  let body := if marked.head? = some Path.slash then marked.drop 1 else marked
  let trimmed := (dropBlanksEnd (dropLastIf (Ascii.byte '\r') body).reverse).reverse
  if trimmed.isEmpty then none
  else
    let onlyDirectories := trimmed.getLast? = some Path.slash
    let whole := if onlyDirectories then 1 < slashes else 0 < slashes
    let pattern := unescapeSpaces (dropLastIf Path.slash trimmed)
    some ⟨keeps, onlyDirectories, whole, hasWildcard false marked, folded, pattern,
      Wildcard.read ⟨whole, folded⟩ pattern⟩

/-- The rules that a text writes. Every step takes a byte, so that `fuel` need not be more than the
length of the text. -/
def readAll (folded : Bool) : Nat → Bytes → List WorkTreeRule
  | 0, _ => []
  | _, [] => []
  | fuel + 1, b :: rest =>
    let text := b :: rest
    if b = Ascii.byte '#' || b = Ascii.byte '\n' ||
        [Ascii.byte '\r', Ascii.byte '\n'].isPrefixOf text then
      readAll folded fuel (afterLine text)
    else
      let (written, after) := splitRule false text
      match ofText? folded written with
      | none => readAll folded fuel after
      | some rule => rule :: readAll folded fuel (afterLine after)

/-- A text as it is compared where capital letters are small ones if `folded`. -/
def fold (folded : Bool) (text : Bytes) : Bytes := if folded then Ascii.lowered text else text

/-- Whether one path is the other, or a name that the other ends with. -/
def endsPath (name path : Bytes) : Bool :=
  name = path || (!name.contains Path.slash && (Path.slash :: name).isSuffixOf path)

/-- Whether a rule may leave out the path that a rule without wildcards keeps. Both stand in a file
whose directory has the given path, with a slash at its end. -/
def mayLeaveOut (folded : Bool) (directory : Bytes) (rule kept : WorkTreeRule) : Bool :=
  if rule.wild then
    Wildcard.accepts ⟨rule.whole, folded⟩ (directory ++ rule.pattern) (directory ++ kept.pattern)
  else
    let (left, right) := (fold folded rule.pattern, fold folded kept.pattern)
    !rule.keeps && (endsPath right left || endsPath left right)

/-- The rules without those that keep a plain path which no rule before may leave out; `earlier` are
the rules before, the nearest first. -/
def dropIdle (folded : Bool) (directory : Bytes) (earlier : List WorkTreeRule) :
    List WorkTreeRule → List WorkTreeRule
  | [] => earlier.reverse
  | rule :: more =>
    if rule.keeps && !rule.wild && !earlier.any (mayLeaveOut folded directory · rule) then
      dropIdle folded directory earlier more
    else dropIdle folded directory (rule :: earlier) more

/-- The bytes of a byte order mark. -/
def byteOrderMark : Bytes := Utf8.encode ['\uFEFF']

/-- The rules of an ignore file in a directory with the given path, which has a slash at its end. A
zero byte ends the file. -/
def ofContent (folded : Bool) (directory content : Bytes) : List WorkTreeRule :=
  let marked := byteOrderMark.isPrefixOf content
  let text := (if marked then content.drop byteOrderMark.length else content).takeWhile (· ≠ 0)
  dropIdle folded directory [] (readAll folded text.length text)

/-- Whether a rule writes a path just as it is. -/
def writes (rule : WorkTreeRule) (path : Bytes) : Bool :=
  fold rule.folded rule.pattern = fold rule.folded path

/-- Whether a rule is about what stands at a path, given by its names from the directory of the
rule on. A rule about directories is also about what is no directory, when it stands further down
and the rule matches its path without writing it. -/
def isAbout (rule : WorkTreeRule) (names : List Bytes) (isDirectory : Bool) : Bool :=
  let path := Path.joinPieces names
  let stretched := rule.onlyDirectories && !isDirectory
  let subject := if rule.whole || stretched then path else names.getLast?.getD []
  !(stretched && (names.length ≤ 1 || rule.writes path)) &&
    (rule.glob.map (Glob.accepts · subject)).getD false

/-- What rules say about a path, if they say anything: whether it is ignored. -/
def verdict (rules : List WorkTreeRule) (names : List Bytes) (isDirectory : Bool) : Option Bool :=
  (rules.reverse.find? (·.isAbout names isDirectory)).map (!·.keeps)

end WorkTreeRule

end LicenseHeader
