import TypeLineage.Json.Value

/-!
# Writing JSON

A value as a text, either without any blanks, or laid out with one member or item a line and each
level two blanks further in. In strings only quotes, backslashes and the characters below the blank
are written otherwise than they are.
-/

namespace TypeLineage.Json

/-- How a character is written in a string. -/
def writtenChar (c : Char) : List Char :=
  if c = '"' ∨ c = '\\' then ['\\', c]
  else if c = '\x08' then ['\\', 'b']
  else if c = '\t' then ['\\', 't']
  else if c = '\n' then ['\\', 'n']
  else if c = '\x0c' then ['\\', 'f']
  else if c = '\r' then ['\\', 'r']
  else if c < ' ' then
    let digits := Text.hex c.toNat
    ['\\', 'u'] ++ List.replicate (4 - digits.length) '0' ++ digits
  else [c]

/-- A string with its quotes. -/
def writtenString (text : String) : List Char :=
  '"' :: (text.toList.flatMap writtenChar ++ ['"'])

/-- How a value that holds no other is written. -/
def writtenScalar : Json → List Char
  | .null => "null".toList
  | .bool value => (toString value).toList
  | .natural value => (toString value).toList
  | .negative size => '-' :: (toString size).toList
  | .real isNegative size => (if isNegative then ['-'] else []) ++ size.text.toList
  | .string text => writtenString text
  | .array _ => []
  | .object _ => []

mutual

/-- A value without blanks. -/
def compactChars : Json → List Char
  | .array items => '[' :: (compactItems items ++ [']'])
  | .object members => '{' :: (compactMembers members ++ ['}'])
  | scalar => writtenScalar scalar

/-- The items of a list without blanks. -/
def compactItems : List Json → List Char
  | [] => []
  | [item] => compactChars item
  | item :: rest => compactChars item ++ ',' :: compactItems rest

/-- The members of an object without blanks. -/
def compactMembers : List (String × Json) → List Char
  | [] => []
  | [(name, value)] => writtenString name ++ ':' :: compactChars value
  | (name, value) :: rest =>
    writtenString name ++ ':' :: compactChars value ++ ',' :: compactMembers rest

end

/-- The start of a line on some level. -/
def newLine (level : Nat) : List Char :=
  '\n' :: List.replicate (2 * level) ' '

mutual

/-- A value laid out, on some level. -/
def prettyChars (level : Nat) : Json → List Char
  | .array [] => ['[', ']']
  | .array items => '[' :: (prettyItems (level + 1) items ++ newLine level ++ [']'])
  | .object [] => ['{', '}']
  | .object members => '{' :: (prettyMembers (level + 1) members ++ newLine level ++ ['}'])
  | scalar => writtenScalar scalar

/-- The items of a list laid out, on some level. -/
def prettyItems (level : Nat) : List Json → List Char
  | [] => []
  | [item] => newLine level ++ prettyChars level item
  | item :: rest => newLine level ++ prettyChars level item ++ ',' :: prettyItems level rest

/-- The members of an object laid out, on some level. -/
def prettyMembers (level : Nat) : List (String × Json) → List Char
  | [] => []
  | [(name, value)] =>
    newLine level ++ writtenString name ++ ':' :: ' ' :: prettyChars level value
  | (name, value) :: rest =>
    newLine level ++ writtenString name ++ ':' :: ' ' :: prettyChars level value ++
      ',' :: prettyMembers level rest

end

/-- The text of a value without blanks. -/
def compact (value : Json) : String :=
  String.ofList (compactChars value)

/-- The text of a value laid out. -/
def pretty (value : Json) : String :=
  String.ofList (prettyChars 0 value)

end TypeLineage.Json
