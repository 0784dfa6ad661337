import TypeLineage.TypeName

/-!
# Facts

What the library knows of one type: its superclass and the interfaces that it declares itself.
-/

namespace TypeLineage

/-- What is known of one type. -/
structure Fact where
  /-- The type that the fact is about. -/
  subject : TypeName
  /-- The superclass; the root of the hierarchy has none. -/
  superclass : Option TypeName := none
  /-- The interfaces named in the declaration, in their order. -/
  interfaces : List TypeName := []
  deriving DecidableEq, Repr, Inhabited

namespace Fact

/-- Whether the type itself declares the interface. -/
def declares (fact : Fact) (interface : TypeName) : Bool :=
  fact.interfaces.contains interface

end Fact

end TypeLineage
