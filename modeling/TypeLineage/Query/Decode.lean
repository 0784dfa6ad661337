import TypeLineage.Json.Tagged
import TypeLineage.Query
import TypeLineage.Text.Blank
import TypeLineage.Text.Lines

/-!
# Reading queries

A batch of queries is a text with one query a line, as a JSON value that is tagged with the
operation. The members of an object may stand in any order, and those that are not known do not
matter; the items of a list stand in the order of the fields. Blank lines are passed over. The first
line that is no query spoils the batch; lines are counted from one, blank ones too.
-/

namespace TypeLineage.Query

open Json

/-- The form in which queries are written. -/
def form : TaggedForm where
  tagName := "op"
  name := "internally tagged enum Query"
  tagTerm := "variant identifier"
  tags := Operation.all.map Operation.name

/-- The field of the type. -/
def typeField : String := "type_name"

/-- The field of the wish to release. -/
def cleanupField : String := "cleanup"

/-- How the fields of an operation are called. -/
structure Fields where
  /-- The operation as its fields' owner is called. -/
  owner : String
  /-- The field of the target. -/
  target : Option String

/-- The fields of an operation. -/
def fieldsOf : Operation → Fields
  | .supertype => { owner := "Supertype", target := none }
  | .interfaces => { owner := "Interfaces", target := none }
  | .extends => { owner := "Extends", target := some "super_name" }
  | .implements => { owner := "Implements", target := some "interface_name" }

/-- What has been found of a query's fields. -/
structure Found where
  /-- The type. -/
  type : Option String := none
  /-- The target. -/
  target : Option String := none
  /-- The wish to release. -/
  cleanup : Option Bool := none
  deriving DecidableEq, Repr

/-- Refuses a field that has been found before. -/
def refuseTwice {α : Type} (name : String) (found : Option α) : Except Fault PUnit :=
  if found.isSome then throw { cause := .duplicateField name } else return

/-- Finds a field in a member of an object. -/
def Found.add (fields : Fields) (found : Found) (name : String) (value : Json) :
    Except Fault Found := do
  if name = typeField then
    refuseTwice name found.type
    return { found with type := some (← asString value) }
  else if some name = fields.target then
    refuseTwice name found.target
    return { found with target := some (← asString value) }
  else if name = cleanupField then
    refuseTwice name found.cleanup
    return { found with cleanup := some (← asBool value) }
  else return found

/-- A field that has to be there. -/
def required (name : String) (found : Option String) : Except Fault String :=
  match found with
  | some text => return text
  | none => throw { cause := .missingField name }

/-- The question of an operation about a type and, if it needs one, a target. -/
def questionOf (operation : Operation) (type target : String) : Engine.Question :=
  match operation with
  | .supertype => .superclass type
  | .interfaces => .interfaces type
  | .extends => .extendsClass type target
  | .implements => .implementsInterface type target

/-- The query of some members. -/
def ofMembers (operation : Operation) (members : List (String × Json)) : Except Fault Query := do
  let fields := fieldsOf operation
  let found ← members.foldlM (fun (found : Found) (name, value) => found.add fields name value) {}
  let type ← required typeField found.type
  let target ←
    match fields.target with
    | none => pure ""
    | some name => required name found.target
  return { question := questionOf operation type target, cleanup := found.cleanup.getD false }

/-- An item that has to be there, at a position among so many. -/
def requiredItem (fields : Fields) (count position : Nat) (items : List Json) :
    Except Fault String :=
  match items[position]? with
  | some item => asString item
  | none =>
    throw
      { cause := .badLength position
          ("struct variant Query::" ++ fields.owner ++ " with " ++ toString count ++ " elements") }

/-- The query of some items. -/
def ofItems (operation : Operation) (items : List Json) : Except Fault Query := do
  let fields := fieldsOf operation
  let texts := if fields.target.isSome then 2 else 1
  let type ← requiredItem fields (texts + 1) 0 items
  let target ← if fields.target.isSome then requiredItem fields (texts + 1) 1 items else pure ""
  let cleanup ←
    match items[texts]? with
    | none => pure false
    | some item => asBool item
  if texts + 1 < items.length then
    throw { cause := .badLength items.length (toString (texts + 1) ++ " elements in sequence") }
  return { question := questionOf operation type target, cleanup }

/-- The query of a tagged value. -/
def ofTagged (tagged : Tagged) : Except Fault Query :=
  match Operation.ofName? tagged.tag with
  | none => throw { cause := .unknownVariant tagged.tag form.tags }
  | some operation =>
    match tagged.content with
    | .members members => ofMembers operation members
    | .items items => ofItems operation items

/-- The query of a line. -/
def ofLine (line : String) : Except Fault Query := do
  let (tagged, cursor) ← (readTagged form).run (.start line)
  let query ← ofTagged tagged
  let _ ← readEnd.run cursor
  return query

/-- A line that is no query. -/
structure BadLine where
  /-- The number of the line. -/
  number : Nat
  /-- The line. -/
  line : String
  /-- What is wrong with it. -/
  fault : Fault
  deriving Repr

/-- The queries of some lines, the first of which has a number. -/
def ofLines (number : Nat) : List (List Char) → Except BadLine (List Query)
  | [] => return []
  | line :: rest =>
    if Text.allBlank line then ofLines (number + 1) rest
    else
      match ofLine (String.ofList line) with
      | .error fault => throw { number, line := String.ofList line, fault }
      | .ok query => do return query :: (← ofLines (number + 1) rest)

/-- The queries of a batch. -/
def batch (content : String) : Except BadLine (List Query) :=
  ofLines 1 (Text.lines content.toList)

end TypeLineage.Query
