import TypeLineage.Engine.Run

/-!
# Queries

A query is a question about the hierarchy, together with the wish to release what was opened for the
answer. It names its operation, a type and, where something is asked about two types, a target; the
names are given back in the answer as they were written.
-/

namespace TypeLineage

/-- What can be asked. -/
inductive Operation where
  /-- The superclass of a type. -/
  | supertype
  /-- The interfaces that a type declares. -/
  | interfaces
  /-- Whether a type extends a class. -/
  | extends
  /-- Whether a type implements an interface. -/
  | implements
  deriving DecidableEq, Repr

namespace Operation

/-- All operations. -/
def all : List Operation :=
  [.supertype, .interfaces, .extends, .implements]

/-- The name of an operation. -/
def name : Operation → String
  | .supertype => "supertype"
  | .interfaces => "interfaces"
  | .extends => "extends"
  | .implements => "implements"

/-- The operation of a name. -/
def ofName? (name : String) : Option Operation :=
  all.find? fun operation => operation.name == name

end Operation

namespace Engine.Question

/-- The operation of a question. -/
def operation : Question → Operation
  | .superclass _ => .supertype
  | .interfaces _ => .interfaces
  | .extendsClass _ _ => .extends
  | .implementsInterface _ _ => .implements

/-- The type of a question as written. -/
def type : Question → String
  | .superclass type => type
  | .interfaces type => type
  | .extendsClass type _ => type
  | .implementsInterface type _ => type

/-- The target of a question as written, if it has one. -/
def target? : Question → Option String
  | .superclass _ => none
  | .interfaces _ => none
  | .extendsClass _ target => some target
  | .implementsInterface _ target => some target

end Engine.Question

/-- A query. -/
structure Query where
  /-- What is asked. -/
  question : Engine.Question
  /-- Whether the reader is released afterwards. -/
  cleanup : Bool := false
  deriving DecidableEq, Repr

end TypeLineage
