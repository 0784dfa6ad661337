import TypeLineage.Json.Reader

/-!
# Tagged values

A value of one of several forms says by a tag which one it has. In an object the tag is a member of
a given name, wherever it stands; in a list it is the first item. The tag is read as what it is as
soon as it is met, so an unknown tag is refused where it stands, while everything else is kept
until the form is known.

## The model

`readTagged` gives the tag and the rest, its `Content`. A tag that is missing or given twice is
noticed before the object is closed, but told behind the closing brace if this comes next.
-/

namespace TypeLineage.Json

open Reading

/-- What a tagged value holds besides its tag. -/
inductive Content where
  /-- The other members of an object. -/
  | members (members : List (String × Json))
  /-- The other items of a list. -/
  | items (items : List Json)
  deriving Repr

/-- A tag and what comes with it. -/
structure Tagged where
  /-- The tag. -/
  tag : String
  /-- What comes with it. -/
  content : Content
  deriving Repr

/-- What tagged values are read. -/
structure TaggedForm where
  /-- The name of the member that holds the tag. -/
  tagName : String
  /-- What the whole value is called where another one is found. -/
  name : String
  /-- What the tag is called where another value is found. -/
  tagTerm : String
  /-- The tags there are. -/
  tags : List String

/-- Reads a tag. -/
def readTag (form : TaggedForm) : Reading String := do
  match ← peekPart? with
  | none => failIn .endInValue
  | some byte =>
    if isThe '[' byte then failAt (.mismatch (.array []) form.tagTerm)
    else if isThe '{' byte then failAt (.mismatch (.object []) form.tagTerm)
    else
      match ← readScalar byte with
      | .string tag =>
        if tag ∈ form.tags then return tag else failAt (.unknownVariant tag form.tags)
      | other => failAt (.mismatch other form.tagTerm)

/-- Fails behind the mark that closes a list or an object, if it comes next. -/
def failBehind {α : Type} (close : Char) (cause : Cause) : Reading α := do
  if (← peekPart?).any (isThe close) then skip 1
  failAt cause

/-- Reads the members of an object, whose tag may have been met, up to its end. -/
def readTaggedMembers (form : TaggedForm) :
    Nat → Bool → Option String → List (String × Json) → Reading Tagged
  | 0, _, _, _ => failIn .endInObject
  | budget + 1, isFirst, tag?, members => do
    if ← hasNextMember isFirst then
      let name ← readName
      if name = form.tagName then
        if tag?.isSome then failBehind '}' (.duplicateField name)
        else
          readColon
          let tag ← readTag form
          readTaggedMembers form budget false (some tag) members
      else
        readColon
        let value ← readValue budget (deepest - 1)
        readTaggedMembers form budget false tag? ((name, value) :: members)
    else
      match tag? with
      | none => failBehind '}' (.missingField form.tagName)
      | some tag =>
        skip 1
        return { tag, content := .members members.reverse }

/-- Reads a list whose first item is the tag. -/
def readTaggedItems (form : TaggedForm) : Reading Tagged := do
  if ← hasNextItem true then
    let tag ← readTag form
    let items ← readItems (← fullBudget) (deepest - 1) false
    return { tag, content := .items items }
  else failBehind ']' (.missingField form.tagName)

/-- Reads a tagged value. -/
def readTagged (form : TaggedForm) : Reading Tagged := do
  match ← peekPart? with
  | none => failIn .endInValue
  | some byte =>
    if isThe '{' byte then
      skip 1
      readTaggedMembers form (← fullBudget) true none []
    else if isThe '[' byte then
      skip 1
      readTaggedItems form
    else
      let found ← readScalar byte
      failAt (.mismatch found form.name)

/-! ### What comes with a tag -/

/-- The text that a value is. -/
def asString : Json → Except Fault String
  | .string text => return text
  | other => throw { cause := .mismatch other "a string" }

/-- The truth value that a value is. -/
def asBool : Json → Except Fault Bool
  | .bool value => return value
  | other => throw { cause := .mismatch other "a boolean" }

end TypeLineage.Json
