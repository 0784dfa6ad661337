import TypeLineage.Engine.Search

/-!
# Runs of the engine

The questions and the other requests as data, the answer to each, and what a sequence of requests
does to an engine that starts with nothing. A run that comes to a question whose walk never ends
has no result.
-/

namespace TypeLineage.Engine

/-- A question about the hierarchy, with type names as they were written. -/
inductive Question where
  /-- What is the superclass of a type? -/
  | superclass (type : String)
  /-- Which interfaces does a type declare? -/
  | interfaces (type : String)
  /-- Does a type extend a class? -/
  | extendsClass (type target : String)
  /-- Does a type implement an interface? -/
  | implementsInterface (type target : String)
  deriving DecidableEq, Repr

/-- The answer to a question. -/
inductive Answer where
  /-- A type, or none. -/
  | name (answer : Option TypeName)
  /-- A list of types, or none. -/
  | names (answer : Option (List TypeName))
  /-- Yes or no. -/
  | flag (holds : Bool)
  deriving DecidableEq, Repr

/-- Whether an answer is a positive one: yes, or something rather than nothing. -/
def Answer.positive : Answer → Bool
  | .name answer => answer.isSome
  | .names answer => answer.isSome
  | .flag holds => holds

/-- What the engine can be asked to do for projects `π`. -/
inductive Request (π : Type) where
  /-- To answer a question, and if so wished to release the reader afterwards. -/
  | ask (project : π) (question : Question) (cleanup : Bool)
  /-- To release the reader of a project. -/
  | cleanup (project : π)
  /-- To forget a project. -/
  | clear (project : π)
  /-- To forget all projects. -/
  | clearAll
  deriving DecidableEq, Repr

variable {π κ ρ ω : Type} [DecidableEq κ] (readers : Readers π κ ρ ω)

namespace State

/-- Answers a question. -/
def answer (state : State π κ ρ ω) (project : π) : Question → Option (Answer × State π κ ρ ω)
  | .superclass type =>
    let (name, state) := state.superclassOf readers project (.ofString type)
    some (.name name, state)
  | .interfaces type =>
    let (names, state) := state.interfacesOf readers project (.ofString type)
    some (.names names, state)
  | .extendsClass type target => do
    let (holds, state) ← state.extendsClass readers project (.ofString type) (.ofString target)
    return (.flag holds, state)
  | .implementsInterface type target => do
    let (holds, state) ←
      state.implementsInterface readers project (.ofString type) (.ofString target)
    return (.flag holds, state)

/-- Releases the reader of a project if that is wished after an answer. -/
def finish (state : State π κ ρ ω) (project : π) (cleanup : Bool) : State π κ ρ ω :=
  if cleanup then state.cleanup readers project else state

/-- Answers a question, and releases the reader afterwards if so wished. -/
def ask (state : State π κ ρ ω) (project : π) (question : Question) (cleanup : Bool) :
    Option (Answer × State π κ ρ ω) := do
  let (answer, state) ← state.answer readers project question
  return (answer, state.finish readers project cleanup)

/-- Does what is requested; only a question has an answer. -/
def perform (state : State π κ ρ ω) : Request π → Option (Option Answer × State π κ ρ ω)
  | .ask project question cleanup => do
    let (answer, state) ← state.ask readers project question cleanup
    return (some answer, state)
  | .cleanup project => some (none, state.cleanup readers project)
  | .clear project => some (none, state.clear readers project)
  | .clearAll => some (none, state.clearAll readers)

/-- Does what is requested, one request after the other. -/
def run (state : State π κ ρ ω) :
    List (Request π) → Option (List (Option Answer) × State π κ ρ ω)
  | [] => some ([], state)
  | request :: rest => do
    let (answer, state) ← state.perform readers request
    let (answers, state) ← run state rest
    return (answer :: answers, state)

/-- The engine before its first request. -/
def start (world : ω) : State π κ ρ ω :=
  { world }

end State

end TypeLineage.Engine
