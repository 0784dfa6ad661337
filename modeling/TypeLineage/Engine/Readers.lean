import TypeLineage.Fact

/-!
# Readers of facts

The engine gets its facts from readers, one at a time for each project, and knows nothing else of
them. A family of readers is given by what its operations do: `ρ` is the state of one reader and
`ω` the state of the world that all of them share, so a reader may count, remember, look at files
that change, or answer otherwise every time.

## The model

Two projects with one key are one project to the engine; a reader is nevertheless created for the
project as it was written in the query at hand, which may be spelled otherwise.
-/

namespace TypeLineage.Engine

/-- A family of readers for the projects `π`, told apart by keys in `κ`. -/
structure Readers (π κ ρ ω : Type) where
  /-- Two projects with one key are one project. -/
  key : π → κ
  /-- Makes a reader for a project. -/
  create : π → ω → ρ × ω
  /-- Asks a reader for the fact about a type. -/
  read : ρ → TypeName → ω → Option Fact × ρ × ω
  /-- Has a reader give up what it holds. -/
  release : ρ → ω → ρ × ω

/-- Why a reader is released. -/
inductive Release where
  /-- The project keeps its facts. -/
  | cleanup
  /-- The project is forgotten. -/
  | clear
  deriving DecidableEq, Repr

/-- What the engine does that can be seen from outside. -/
inductive Event (π : Type) where
  /-- A reader is made for a project. -/
  | create (project : π)
  /-- The reader made for a project is asked for a type and answers. -/
  | read (project : π) (name : TypeName) (answer : Option Fact)
  /-- The reader made for a project is released. -/
  | release (project : π) (cause : Release)
  /-- A project is forgotten, with the number of its facts. -/
  | forget (project : π) (facts : Nat)
  deriving DecidableEq, Repr

/-- What the engine logs of an event, if anything. -/
def Event.note? {π : Type} : Event π → Option String
  | .create _ => some "DEBUG creating type hierarchy reader"
  | .read _ _ _ => none
  | .release _ .cleanup => some "DEBUG released type hierarchy reader"
  | .release _ .clear => none
  | .forget _ facts => some ("DEBUG cleared type hierarchy cache cached_elements=" ++ toString facts)

end TypeLineage.Engine
