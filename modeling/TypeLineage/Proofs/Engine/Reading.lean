import TypeLineage.Proofs.Engine.View

/-!
# The reader in use

A project has one reader in use at most. A look at a fact that is not cached asks this reader, or
one that is made for it now; from then on that one is in use, with the project as it was written
when it was made. Releasing and forgetting end its use.

What is said here of each operation is all that it does: later proofs do not open them again.
-/

namespace TypeLineage.Engine

variable {π κ ρ ω : Type}

/-- The context after a reader has been asked for a type that was not cached. -/
def Context.told (context : Context π ρ) (name : TypeName) (answer : Option Fact)
    (inUse : π × ρ) : Context π ρ :=
  { context with
    cache := { context.cache with misses := context.cache.misses + 2 }.learn name answer
    reader := some inUse }

variable [DecidableEq κ]

namespace State

/-- The reader in use for a project, with the project as written for which it was made. -/
def held (readers : Readers π κ ρ ω) (state : State π κ ρ ω) (project : π) : Option (π × ρ) :=
  (state.context? readers project).bind Context.reader

section Effects

variable (readers : Readers π κ ρ ω) (state : State π κ ρ ω) (project other : π)
  (context : Context π ρ) (name : TypeName)

theorem held_setContext :
    (state.setContext readers project context).held readers other =
      if readers.key other = readers.key project then context.reader
      else state.held readers other := by
  unfold held
  rw [context?_setContext]
  split <;> rfl

theorem reader_contextOrNew :
    (state.contextOrNew readers project).reader = state.held readers project := by
  unfold contextOrNew held
  cases state.context? readers project <;> rfl

theorem context?_lookCached :
    (state.lookCached readers project name).2.context? readers other =
      if readers.key other = readers.key project then
        (state.context? readers project).map fun context =>
          { context with cache := (context.cache.get name).2 }
      else state.context? readers other := by
  cases known : state.context? readers project with
  | none =>
    have same : (state.lookCached readers project name).2 = state := by simp [lookCached, known]
    rw [same]
    split
    case isTrue e => rwa [context?, e]
    case isFalse => rfl
  | some context =>
    have set : (state.lookCached readers project name).2 = state.setContext readers project
        { context with cache := (context.cache.get name).2 } := by simp [lookCached, known]
    rw [set, context?_setContext]
    rfl

@[simp] theorem held_lookCached :
    (state.lookCached readers project name).2.held readers other = state.held readers other := by
  unfold held
  rw [context?_lookCached]
  split
  case isTrue same =>
    rw [context?, context?, same]
    cases state.contexts.lookup (readers.key project) <;> rfl
  case isFalse => rfl

end Effects

variable {readers : Readers π κ ρ ω} {state : State π κ ρ ω} {project other : π}
  {written : π} {reader reader' : ρ} {world world' : ω} {name : TypeName} {answer : Option Fact}

theorem held_congr (same : readers.key other = readers.key project) :
    state.held readers other = state.held readers project := by
  rw [held, held, context?, context?, same]

/-! ### Asking -/

/-- How the reader is come by that is asked next: it is the one in use, or it is made now. The list
says what happens for that; the world is the one in which the reader is then asked. -/
inductive Takes (readers : Readers π κ ρ ω) (state : State π κ ρ ω) (project : π) :
    List (Event π) → π → ρ → ω → Prop where
  /-- A reader is in use. -/
  | held {written : π} {reader : ρ} (h : state.held readers project = some (written, reader)) :
      Takes readers state project [] written reader state.world
  /-- None is in use. -/
  | made (h : state.held readers project = none) :
      Takes readers state project [.create project] project
        (readers.create project state.world).1 (readers.create project state.world).2

variable (readers state project) in
theorem exists_takes :
    ∃ made written reader world, Takes readers state project made written reader world := by
  cases h : state.held readers project with
  | none => exact ⟨_, _, _, _, .made h⟩
  | some held => exact ⟨_, held.1, held.2, _, .held h⟩

/-- A look at what is not cached asks the reader that is come by in this way. -/
theorem Takes.lookFull {made : List (Event π)}
    (takes : Takes readers state project made written reader world)
    (unknown : state.cached readers project name = none)
    (read : readers.read reader name world = (answer, reader', world')) :
    state.lookFull readers project name =
      (answer,
        { state with
          world := world'
          trace := state.trace ++ (made ++ [Event.read written name answer]) }.setContext
          readers project
          ((state.contextOrNew readers project).told name answer (written, reader'))) := by
  cases takes with
  | held inUse =>
    have take : state.takeReader readers project (state.contextOrNew readers project) =
        ((written, reader), state) := by
      simp [takeReader, reader_contextOrNew, inUse]
    exact lookFull_of_not_cached unknown take read
  | made unused =>
    have take : state.takeReader readers project (state.contextOrNew readers project) =
        ((project, (readers.create project state.world).1),
          { state with
            world := (readers.create project state.world).2
            trace := state.trace ++ [.create project] }) := by
      simp [takeReader, reader_contextOrNew, unused]
    rw [lookFull_of_not_cached unknown take read]
    simp only [List.append_assoc]
    rfl

/-! ### Releasing -/

theorem cleanup_of_not_held (h : state.held readers project = none) :
    state.cleanup readers project = state := by
  unfold cleanup
  split
  · rfl
  case h_2 context known =>
    have unused : context.reader = none := by simpa [held, known] using h
    rw [unused]

theorem cleanup_of_held (h : state.held readers project = some (written, reader)) :
    state.cleanup readers project =
      { state with
        world := (readers.release reader state.world).2
        trace := state.trace ++ [Event.release written .cleanup] }.setContext readers project
        { state.contextOrNew readers project with reader := none } := by
  obtain ⟨context, known, inUse⟩ := Option.bind_eq_some_iff.mp h
  simp [cleanup, contextOrNew, known, inUse]

theorem held_cleanup (other : π) :
    (state.cleanup readers project).held readers other =
      if readers.key other = readers.key project then none else state.held readers other := by
  cases h : state.held readers project with
  | none =>
    rw [cleanup_of_not_held h]
    split
    case isTrue same => rw [held_congr same, h]
    case isFalse => rfl
  | some inUse => rw [cleanup_of_held h, held_setContext]; rfl

/-! ### Forgetting -/

theorem clear_of_not_known (h : state.context? readers project = none) :
    state.clear readers project = state := by
  simp [clear, h]

theorem clear_of_not_held {context : Context π ρ}
    (known : state.context? readers project = some context) (unused : context.reader = none) :
    state.clear readers project =
      { state with
        contexts := removeEntry (readers.key project) state.contexts
        trace := state.trace ++ [.forget context.project context.cache.size] } := by
  simp [clear, known, unused]

theorem clear_of_held {context : Context π ρ}
    (known : state.context? readers project = some context)
    (inUse : context.reader = some (written, reader)) :
    state.clear readers project =
      { contexts := removeEntry (readers.key project) state.contexts
        world := (readers.release reader state.world).2
        trace := state.trace ++
          [.release written .clear, .forget context.project context.cache.size] } := by
  simp [clear, known, inUse]

end State

end TypeLineage.Engine
