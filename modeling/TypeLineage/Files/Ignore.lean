import TypeLineage.Files.Disk
import TypeLineage.Files.Glob
import TypeLineage.Text.Blank
import TypeLineage.Text.Lines

/-!
# Rules about files to pass over

A directory may hold a file `.ignore` with one rule a line. A rule is a glob pattern for paths below
the directory; with an exclamation mark in front it takes entries back in, with a slash at the end
it is about directories only, and unless it holds a slash it is about entries at any depth. The last
rule of a file that matches an entry decides. Rules of a directory come before those of the
directories above it.
-/

namespace TypeLineage.Files

/-- A rule about entries below a directory. -/
structure IgnoreRule where
  /-- What the paths of the entries match. -/
  pattern : Glob.Pattern
  /-- Whether the entries are taken in again. -/
  takesIn : Bool := false
  /-- Whether the rule is about directories only. -/
  directoriesOnly : Bool := false
  deriving DecidableEq, Repr

namespace IgnoreRule

/-- A pattern as it is matched against whole paths: one for any depth unless it is anchored, and one
that ends in two stars matches what is inside a directory, not the directory. -/
def wholePath (anchored : Bool) (pattern : String) : String :=
  let starred := pattern == "**" || pattern.startsWith "**/"
  let deep := if anchored || starred then pattern else "**/" ++ pattern
  if deep.endsWith "/**" then deep ++ "/*" else deep

/-- The rule about a pattern as written, once marks in front have been read. -/
def ofPattern? (takesIn anchored : Bool) (written : List Char) : Option IgnoreRule :=
  let (directoriesOnly, written) :=
    if written.getLast? = some '/' then
      let named := written.dropLast
      (true, if named.getLast? = some '\\' then named.dropLast else named)
    else (false, written)
  let anchored := anchored || written.contains '/'
  (Glob.Pattern.ofString? (wholePath anchored (String.ofList written))).map fun pattern =>
    { pattern, takesIn, directoriesOnly }

/-- The rule of a line, if it holds one that can be read. Lines that start with a hash mark are
comments, and blanks at the end count only behind a backslash. -/
def ofLine? (line : List Char) : Option IgnoreRule :=
  if line.head? = some '#' then none
  else
    let line := if ['\\', ' '].isSuffixOf line then line else Text.trimEnd line
    match line with
    | [] => none
    | '\\' :: '!' :: rest => ofPattern? false false ('!' :: rest)
    | '\\' :: '#' :: rest => ofPattern? false false ('#' :: rest)
    | '!' :: '/' :: rest => ofPattern? true true rest
    | '!' :: rest => ofPattern? true false rest
    | '/' :: rest => ofPattern? false true rest
    | line => ofPattern? false false line

/-- The rules of a text. Marks of byte order in front of it do not count. -/
def ofText (text : String) : List IgnoreRule :=
  (Text.lines (text.toList.dropWhile (· == '\uFEFF'))).filterMap ofLine?

/-- The text of a file up to the first line that is not in UTF-8. -/
def readable (content : ByteArray) : String :=
  let lines := content.toList.splitBy fun byte _ => byte != 0x0A
  let texts := lines.map fun line => String.fromUTF8? ⟨line.toArray⟩
  String.join ((texts.takeWhile Option.isSome).filterMap id)

/-- Whether a rule is about an entry, given by its path below the directory of the rule. -/
def concerns (rule : IgnoreRule) (path : String) (isDirectory : Bool) : Bool :=
  (!rule.directoriesOnly || isDirectory) && rule.pattern.matches path

end IgnoreRule

/-- What the rules of one directory say of an entry: to pass it over, to take it in, or nothing. -/
def decideBy (rules : List IgnoreRule) (path : String) (isDirectory : Bool) : Option Bool :=
  (rules.reverse.find? fun rule => rule.concerns path isDirectory).map fun rule => !rule.takesIn

namespace Disk

/-- The rules in a directory. -/
def ignoreRules (disk : Disk) (place : Place) : List IgnoreRule :=
  match disk.follow 40 place [".ignore"] with
  | .error _ => []
  | .ok found =>
    match disk.node? found with
    | some (.file content) => IgnoreRule.ofText (IgnoreRule.readable content)
    | _ => []

/-- Whether an entry is passed over: the nearest directory above it whose rules say anything of it
decides. The entry stands at the end of `names` below `place`, and the directories of `names` are
asked before `place` and those above it. -/
def passedOver (disk : Disk) (place : Place) (names : List String) (isDirectory : Bool) : Bool :=
  let whole := place ++ names
  let depths := (List.range whole.length).reverse
  let decided := depths.findSome? fun depth =>
    decideBy (disk.ignoreRules (whole.take depth))
      (String.intercalate "/" (whole.drop depth)) isDirectory
  decided.getD false

end Disk

end TypeLineage.Files
