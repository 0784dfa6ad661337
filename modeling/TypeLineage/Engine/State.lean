import TypeLineage.Engine.Readers
import TypeLineage.Fact.Cache

/-!
# What the engine remembers

For every project that a query has looked something up in: its cached facts and, while one is in
use, its reader. A type is looked up in the cache first and, if the search may read, asked of the
reader next; the reader is made when it is first needed. What a reader does not know is not
remembered, so it is asked again the next time.
-/

namespace TypeLineage.Engine

variable {π κ ρ ω : Type}

/-- What the engine remembers of one project. -/
structure Context (π ρ : Type) where
  /-- The project as it was written when it was first looked at. -/
  project : π
  /-- The facts read so far. -/
  cache : Cache := {}
  /-- The reader in use, with the project as written for which it was made. -/
  reader : Option (π × ρ) := none

/-- The state of the engine, with the world that its readers see and what it has done. -/
structure State (π κ ρ ω : Type) where
  /-- The known projects by their keys, in the order of first use. -/
  contexts : List (κ × Context π ρ) := []
  /-- The world that the readers share. -/
  world : ω
  /-- What the engine has done, the first event first. -/
  trace : List (Event π) := []

/-- What can be asked about the memory of a project. -/
structure Stats where
  /-- The number of cached facts. -/
  cached : Nat
  /-- The number of looks that found a fact in the cache. -/
  hits : Nat
  /-- The number of looks that found none there. -/
  misses : Nat
  /-- Whether a reader is in use. -/
  readerActive : Bool
  deriving DecidableEq, Repr

/-- Replaces the entry of a key, or adds one at the end. -/
def replaceEntry [DecidableEq κ] {α : Type} (key : κ) (value : α) : List (κ × α) → List (κ × α)
  | [] => [(key, value)]
  | (k, v) :: rest => if k = key then (k, value) :: rest else (k, v) :: replaceEntry key value rest

/-- Removes the entry of a key. -/
def removeEntry [DecidableEq κ] {α : Type} (key : κ) : List (κ × α) → List (κ × α)
  | [] => []
  | (k, v) :: rest => if k = key then rest else (k, v) :: removeEntry key rest

namespace State

variable [DecidableEq κ] (readers : Readers π κ ρ ω)

/-- What is remembered of a project, if it is known. -/
def context? (state : State π κ ρ ω) (project : π) : Option (Context π ρ) :=
  state.contexts.lookup (readers.key project)

/-- What is remembered of a project; nothing yet for a new one. -/
def contextOrNew (state : State π κ ρ ω) (project : π) : Context π ρ :=
  (state.context? readers project).getD { project }

/-- Remembers something else of a project. -/
def setContext (state : State π κ ρ ω) (project : π) (context : Context π ρ) : State π κ ρ ω :=
  { state with contexts := replaceEntry (readers.key project) context state.contexts }

/-- The projects that something is remembered of, as they were first written. -/
def knownProjects (state : State π κ ρ ω) : List π :=
  state.contexts.map fun entry => entry.2.project

/-- The numbers that describe the memory of a project, if it is known. -/
def stats (state : State π κ ρ ω) (project : π) : Option Stats :=
  (state.context? readers project).map fun context =>
    { cached := context.cache.size
      hits := context.cache.hits
      misses := context.cache.misses
      readerActive := context.reader.isSome }

/-- Looks a type up in the cache only. A project that is not known has none, and stays unknown. -/
def lookCached (state : State π κ ρ ω) (project : π) (name : TypeName) :
    Option Fact × State π κ ρ ω :=
  match state.context? readers project with
  | none => (none, state)
  | some context =>
    let (found, cache) := context.cache.get name
    (found, state.setContext readers project { context with cache })

/-- The reader of a context, made now if there is none. -/
def takeReader (state : State π κ ρ ω) (project : π) (context : Context π ρ) :
    (π × ρ) × State π κ ρ ω :=
  match context.reader with
  | some reader => (reader, state)
  | none =>
    let (reader, world) := readers.create project state.world
    ((project, reader), { state with world, trace := state.trace ++ [Event.create project] })

/-- Asks the reader of a project for a type, and remembers the fact if there is one. The cache is
looked at once more first, and that look counts too. -/
def readFact (state : State π κ ρ ω) (project : π) (context : Context π ρ) (name : TypeName) :
    Option Fact × State π κ ρ ω :=
  match context.cache.get name with
  | (some found, cache) => (some found, state.setContext readers project { context with cache })
  | (none, cache) =>
    let ((written, reader), state) := state.takeReader readers project context
    let (answer, reader, world) := readers.read reader name state.world
    let state :=
      { state with world, trace := state.trace ++ [Event.read written name answer] }
    match answer with
    | none =>
      (none, state.setContext readers project { context with cache, reader := some (written, reader) })
    | some fact =>
      let (stored, cache) := cache.put name fact
      (some stored,
        state.setContext readers project { context with cache, reader := some (written, reader) })

/-- Looks a type up in the cache, and asks the reader for what is not there. -/
def lookFull (state : State π κ ρ ω) (project : π) (name : TypeName) :
    Option Fact × State π κ ρ ω :=
  let context := state.contextOrNew readers project
  match context.cache.get name with
  | (some found, cache) => (some found, state.setContext readers project { context with cache })
  | (none, cache) => state.readFact readers project { context with cache } name

/-! ### Letting go -/

/-- Has the reader of a project released, if one is in use; the cached facts stay. -/
def cleanup (state : State π κ ρ ω) (project : π) : State π κ ρ ω :=
  match state.context? readers project with
  | none => state
  | some context =>
    match context.reader with
    | none => state
    | some (written, reader) =>
      let (_, world) := readers.release reader state.world
      { state with world, trace := state.trace ++ [Event.release written .cleanup] }.setContext
        readers project { context with reader := none }

/-- Forgets a project, its reader and its facts. -/
def clear (state : State π κ ρ ω) (project : π) : State π κ ρ ω :=
  match state.context? readers project with
  | none => state
  | some context =>
    let state := { state with contexts := removeEntry (readers.key project) state.contexts }
    let forgotten := Event.forget context.project context.cache.size
    match context.reader with
    | none => { state with trace := state.trace ++ [forgotten] }
    | some (written, reader) =>
      let (_, world) := readers.release reader state.world
      { state with world, trace := state.trace ++ [Event.release written .clear, forgotten] }

/-- Forgets all projects. -/
def clearAll (state : State π κ ρ ω) : State π κ ρ ω :=
  state.knownProjects.foldl (fun state project => state.clear readers project) state

end State

end TypeLineage.Engine
