import TypeLineage.Java.Token
import TypeLineage.Java.Unit

/-!
# Headers of type declarations

What stands between the name of a declared type and its body: type parameters, the components of a
record, and the clauses that name other types. Of the clauses those count that name supertypes.

## The model

The tokens are read from left to right. What stands in parentheses or angle brackets has no say in
where a clause or a type ends. Otherwise a comma ends a type, and so does a keyword of a clause; but
a type may be called like a keyword, so a word is a keyword only where no name is awaited.
-/

namespace TypeLineage.Java

/-- The clauses of a header. -/
inductive Clause where
  /-- The class that is extended. -/
  | superclass
  /-- The interfaces that are extended or implemented. -/
  | interfaces
  /-- The types that may extend the declared one. -/
  | permitted
  deriving DecidableEq, Repr

/-- The clause that a keyword starts, in the declaration of a type of some kind. -/
def Clause.ofKeyword? (kind : TypeKind) (word : List Char) : Option Clause :=
  if word = "extends".toList then
    some (if kind = .interface then .interfaces else .superclass)
  else if word = "implements".toList then some .interfaces
  else if word = "permits".toList then some .permitted
  else none

/-- The text of a type without blanks and type arguments, given by its tokens and perhaps some
layout around them. -/
def writtenType (tokens : List Token) : String :=
  let tokens := tokens.dropWhile Token.isLayout
  let tokens := (tokens.reverse.dropWhile Token.isLayout).reverse
  let text := tokens.flatMap Token.text
  String.ofList ((text.takeWhile (· != '<')).filter fun c => !Text.isBlank c)

/-- What the next word is. -/
inductive Awaited where
  /-- A keyword, unless it goes on with a type. -/
  | keyword
  /-- A part of the name of a type. -/
  | name
  /-- A part of the name of an annotation. -/
  | annotationName
  deriving DecidableEq, Repr

/-- How far the reading of a header has come. -/
structure HeaderState where
  /-- The clause that the reading is in. -/
  clause : Option Clause := none
  /-- What the next word is. -/
  awaited : Awaited := .keyword
  /-- The number of open parentheses. -/
  parentheses : Nat := 0
  /-- The number of open angle brackets. -/
  angles : Nat := 0
  /-- The tokens of the type that is being read, the last one first. -/
  current : List Token := []
  /-- The types that have been read, the last one first. -/
  types : List (Clause × String) := []
  deriving DecidableEq, Repr

namespace HeaderState

/-- One more token belongs to the type that is being read. -/
def keep (state : HeaderState) (token : Token) : HeaderState :=
  { state with current := token :: state.current }

/-- The type that is being read has ended. -/
def endType (state : HeaderState) : HeaderState :=
  match state.clause with
  | none => { state with current := [] }
  | some clause =>
    { state with
      current := []
      types := (clause, writtenType state.current.reverse) :: state.types }

/-- Reads a word. -/
def readWord (kind : TypeKind) (state : HeaderState) (token : Token) : HeaderState :=
  match state.awaited with
  | .annotationName => { state.keep token with awaited := .name }
  | .name => { state.keep token with awaited := .keyword }
  | .keyword =>
    match Clause.ofKeyword? kind token.text with
    | none => state.keep token
    | some clause => { state.endType with clause := some clause, awaited := .name }

/-- Reads a token outside of brackets. -/
def readOpen (kind : TypeKind) (state : HeaderState) (token : Token) : HeaderState :=
  if token.isWord then state.readWord kind token
  else if token.isMark '(' then { state.keep token with parentheses := 1 }
  else if token.isMark '<' then { state.keep token with angles := 1 }
  else if token.isMark ',' then { state.endType with awaited := .name }
  else if token.isMark '@' then { state.keep token with awaited := .annotationName }
  else if token.isMark '.' then
    { state.keep token with awaited := if state.awaited = .name then .annotationName else .name }
  else if token.isMark '[' then { state.keep token with awaited := .keyword }
  else state.keep token

/-- Reads a token. -/
def read (kind : TypeKind) (state : HeaderState) (token : Token) : HeaderState :=
  if 0 < state.parentheses then
    { state.keep token with
      parentheses :=
        if token.isMark '(' then state.parentheses + 1
        else if token.isMark ')' then state.parentheses - 1
        else state.parentheses }
  else if 0 < state.angles then
    if token.isMark '(' then { state.keep token with parentheses := 1 }
    else
      { state.keep token with
        angles :=
          if token.isMark '<' then state.angles + 1
          else if token.isMark '>' then state.angles - 1
          else state.angles }
  else state.readOpen kind token

end HeaderState

/-- The tokens before the body, which starts with the first brace outside of parentheses. -/
def beforeBody : Nat → List Token → List Token
  | _, [] => []
  | parentheses, token :: rest =>
    if token.isMark '{' && parentheses == 0 then []
    else
      let parentheses :=
        if token.isMark '(' then parentheses + 1
        else if token.isMark ')' then parentheses - 1
        else parentheses
      token :: beforeBody parentheses rest

/-- The types named in the clauses of a header. -/
def headerTypes (kind : TypeKind) (tokens : List Token) : List (Clause × String) :=
  ((beforeBody 0 tokens).foldl (HeaderState.read kind) {}).endType.types.reverse

/-- The declaration of a type, given its kind, its name and what follows. -/
def Declaration.ofHeader (kind : TypeKind) (name : String) (tokens : List Token) : Declaration :=
  let types := headerTypes kind tokens
  { kind
    name
    superclass := (types.find? fun entry => entry.1 == .superclass).map Prod.snd
    interfaces := (types.filter fun entry => entry.1 == .interfaces).map Prod.snd }

end TypeLineage.Java
