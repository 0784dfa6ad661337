import TypeLineage.Engine.State
import TypeLineage.Engine.Walk

/-!
# The four questions

What is the superclass of a type, which interfaces does it declare, does it extend a class, does it
implement an interface?

## The model

*Extends* follows superclasses from the type upwards and holds as soon as the class is met; the
class itself need not be known.

*Implements* follows superclasses as well and searches, from each class on the way, the interfaces
declared there and those that they extend in turn. A type implements what a fact on this way
declares; the interface itself need not be known. A first pass looks at cached facts only. It is
believed if it finds the interface, or if no fact was missing; otherwise a second pass may read.

The last two may walk for ever over readers that never run out of new names; there is no answer
then.
-/

namespace TypeLineage.Engine

open Look

variable {π κ ρ ω : Type} [DecidableEq κ] (readers : Readers π κ ρ ω)

/-- Looks a type up as a pass does. -/
def look (pass : Pass) (project : π) (name : TypeName) (state : State π κ ρ ω) :
    Option Fact × State π κ ρ ω :=
  match pass with
  | .cachedOnly => state.lookCached readers project name
  | .full => state.lookFull readers project name

/-- A whole pass in search of an interface of a type. -/
def searchPass (pass : Pass) (project : π) (name target : TypeName) (state : State π κ ρ ω) :
    Option (Verdict × State π κ ρ ω) :=
  searchClasses (look readers pass project) pass target (some name) {} state

namespace State

/-- The superclass of a type; none also for a type that cannot be resolved. -/
def superclassOf (state : State π κ ρ ω) (project : π) (name : TypeName) :
    Option TypeName × State π κ ρ ω :=
  let (fact, state) := look readers .full project name state
  (fact.bind Fact.superclass, state)

/-- The interfaces that a type declares itself; none if the type cannot be resolved. -/
def interfacesOf (state : State π κ ρ ω) (project : π) (name : TypeName) :
    Option (List TypeName) × State π κ ρ ω :=
  let (fact, state) := look readers .full project name state
  (fact.map Fact.interfaces, state)

/-- Whether a type is a class or one of its subclasses. -/
def extendsClass (state : State π κ ρ ω) (project : π) (name target : TypeName) :
    Option (Bool × State π κ ρ ω) :=
  climb (look readers .full project) target (some name) [] state

/-- Whether a type implements an interface. -/
def implementsInterface (state : State π κ ρ ω) (project : π) (name target : TypeName) :
    Option (Bool × State π κ ρ ω) := do
  match ← searchPass readers .cachedOnly project name target state with
  | (.found, state) => return (true, state)
  | (.absent, state) => return (false, state)
  | (.inconclusive, state) =>
    let (verdict, state) ← searchPass readers .full project name target state
    return (verdict == .found, state)

end State

end TypeLineage.Engine
