import TypeLineage.Json.Value
import TypeLineage.Text.Split

/-!
# What can be wrong with a JSON text

The causes for which a text is refused: it is no JSON, or the value is not of the form that is
expected. A fault found while reading tells the column in the line; one found in what has been read
does not.
-/

namespace TypeLineage.Json

/-- Why a text is refused. -/
inductive Cause where
  /-- The text ends within a list. -/
  | endInList
  /-- The text ends within an object. -/
  | endInObject
  /-- The text ends within a string. -/
  | endInString
  /-- The text ends where a value should be. -/
  | endInValue
  /-- There is no colon behind a name. -/
  | colonExpected
  /-- There is neither a comma nor the end behind an item. -/
  | listCommaExpected
  /-- There is neither a comma nor the end behind a member. -/
  | objectCommaExpected
  /-- A word is begun that is none of the three there are. -/
  | wordExpected
  /-- What should be a value is none. -/
  | valueExpected
  /-- There is an unknown escape in a string. -/
  | badEscape
  /-- A number is malformed. -/
  | badNumber
  /-- A number is too large. -/
  | outOfRange
  /-- A string holds a control character. -/
  | controlCharacter
  /-- The name of a member is no string. -/
  | nameExpected
  /-- One half of a pair of escapes stands alone. -/
  | loneSurrogate
  /-- There is a comma behind the last item or member. -/
  | trailingComma
  /-- There is something behind the value. -/
  | trailingCharacters
  /-- The second half of a pair of escapes is missing. -/
  | halfSurrogate
  /-- Lists and objects are nested too deeply. -/
  | tooDeep
  /-- A value is not of the expected form. -/
  | mismatch (found : Json) (expected : String)
  /-- A name is none of those expected. -/
  | unknownVariant (found : String) (expected : List String)
  /-- A member is given twice. -/
  | duplicateField (name : String)
  /-- A member is missing. -/
  | missingField (name : String)
  /-- A list has not the expected number of items. -/
  | badLength (found : Nat) (expected : String)
  deriving Repr

/-- A name between marks that set it off. -/
def markedName (name : String) : String :=
  "`" ++ name ++ "`"

/-- Some names with commas between them. -/
def markedNames (names : List String) : String :=
  String.ofList (Text.join ", ".toList (names.map fun name => (markedName name).toList))

/-- What is said of a cause. -/
def Cause.message : Cause → String
  | .endInList => "EOF while parsing a list"
  | .endInObject => "EOF while parsing an object"
  | .endInString => "EOF while parsing a string"
  | .endInValue => "EOF while parsing a value"
  | .colonExpected => "expected `:`"
  | .listCommaExpected => "expected `,` or `]`"
  | .objectCommaExpected => "expected `,` or `\x7d`"
  | .wordExpected => "expected ident"
  | .valueExpected => "expected value"
  | .badEscape => "invalid escape"
  | .badNumber => "invalid number"
  | .outOfRange => "number out of range"
  | .controlCharacter => "control character (\\u0000-\\u001F) found while parsing a string"
  | .nameExpected => "key must be a string"
  | .loneSurrogate => "lone leading surrogate in hex escape"
  | .trailingComma => "trailing comma"
  | .trailingCharacters => "trailing characters"
  | .halfSurrogate => "unexpected end of hex escape"
  | .tooDeep => "recursion limit exceeded"
  | .mismatch found expected => "invalid type: " ++ found.description ++ ", expected " ++ expected
  | .unknownVariant found expected =>
    "unknown variant " ++ markedName found ++ ", expected one of " ++ markedNames expected
  | .duplicateField name => "duplicate field " ++ markedName name
  | .missingField name => "missing field " ++ markedName name
  | .badLength found expected =>
    "invalid length " ++ toString found ++ ", expected " ++ expected

/-- A cause and, if it was found while reading, the column, which counts bytes. -/
structure Fault where
  /-- Why the text is refused. -/
  cause : Cause
  /-- Where in the line. -/
  column : Option Nat := none
  deriving Repr

/-- What is said of a fault. -/
def Fault.message (fault : Fault) : String :=
  match fault.column with
  | none => fault.cause.message
  | some column => fault.cause.message ++ " at line 1 column " ++ toString column

end TypeLineage.Json
