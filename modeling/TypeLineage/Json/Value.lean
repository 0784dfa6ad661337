import TypeLineage.Json.Shortest
import TypeLineage.Text.Quoted

/-!
# JSON values

The values that JSON texts stand for. Numbers are kept in three forms: whole and not negative, whole
and negative, and double precision for all others.
-/

namespace TypeLineage

/-- A JSON value. -/
inductive Json where
  /-- The value that stands for none. -/
  | null
  /-- A truth value. -/
  | bool (value : Bool)
  /-- A whole number that is not negative. -/
  | natural (value : Nat)
  /-- A whole number below zero, given without its sign. -/
  | negative (size : Nat)
  /-- Another number, given by its sign and its size. -/
  | real (isNegative : Bool) (size : Double)
  /-- A text. -/
  | string (text : String)
  /-- A list of values. -/
  | array (items : List Json)
  /-- Named values in their order. -/
  | object (members : List (String × Json))
  deriving Repr, Inhabited

namespace Json

/-- A text, or null if there is none. -/
def optionalString (text : Option String) : Json :=
  (text.map Json.string).getD .null

/-- A list of texts. -/
def strings (texts : List String) : Json :=
  .array (texts.map .string)

/-- How a value is described where another one is expected. -/
def description : Json → String
  | .null => "null"
  | .bool value => "boolean `" ++ toString value ++ "`"
  | .natural value => "integer `" ++ toString value ++ "`"
  | .negative size => "integer `-" ++ toString size ++ "`"
  | .real isNegative size =>
    "floating point `" ++ (if isNegative then "-" else "") ++ size.text ++ "`"
  | .string text => "string " ++ Text.quoted text
  | .array _ => "sequence"
  | .object _ => "map"

end Json

end TypeLineage
