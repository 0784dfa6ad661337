/-!
# Compilation units

What a Java source file says of the types that it declares: the package, the imports, and of each
type on the top level its kind, its name and its supertypes as they are written there.
-/

namespace TypeLineage.Java

/-- An import of types. -/
structure Import where
  /-- The name as written, without the star. -/
  path : String
  /-- Whether there is a star, so that all types of a package are imported as they are needed. -/
  onDemand : Bool
  deriving DecidableEq, Repr

/-- The kinds of declared types. -/
inductive TypeKind where
  /-- A class. -/
  | «class»
  /-- An interface. -/
  | interface
  /-- An enumeration. -/
  | enumeration
  /-- A record. -/
  | record
  /-- An annotation type. -/
  | annotationType
  deriving DecidableEq, Repr

/-- A type declared on the top level. -/
structure Declaration where
  /-- What it is. -/
  kind : TypeKind
  /-- Its name. -/
  name : String
  /-- The superclass as written, without blanks and type arguments. -/
  superclass : Option String := none
  /-- The interfaces as written, without blanks and type arguments. -/
  interfaces : List String := []
  deriving DecidableEq, Repr

/-- A compilation unit. -/
structure Unit where
  /-- The package as written; empty if there is none. -/
  package : String := ""
  /-- The imports of types in their order. -/
  imports : List Import := []
  /-- The declared types in their order. -/
  declarations : List Declaration := []
  deriving DecidableEq, Repr

namespace Unit

/-- The first declared type of a name. -/
def declaration? (unit : Unit) (name : String) : Option Declaration :=
  unit.declarations.find? fun declaration => declaration.name == name

/-- The first import of a single type whose name ends in the given one. -/
def singleImport? (unit : Unit) (name : String) : Option Import :=
  unit.imports.find? fun imported => !imported.onDemand &&
    (imported.path.toList.reverse.takeWhile (· != '.')).reverse == name.toList

/-- The imports of whole packages. -/
def onDemandImports (unit : Unit) : List Import :=
  unit.imports.filter Import.onDemand

end Unit

end TypeLineage.Java
