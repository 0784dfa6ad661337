import TypeLineage.Engine.Search
import TypeLineage.Proofs.Engine.Entries
import TypeLineage.Proofs.Hierarchy
import TypeLineage.Proofs.Walk.Course

/-!
# What one operation does to the memory

The memory of a project is seen through the facts that are cached for it. A look adds no more than
the fact it gives, and only to its own project; a look at a cached fact reads nothing, so it makes
no difference then whether the look could read. Releasing a reader keeps the facts, and forgetting a
project takes the facts of that project and no others.
-/

namespace TypeLineage

open Hierarchy

namespace Cache

/-- The cache after a reader has answered: a fact is stored, and nothing else. -/
def learn (cache : Cache) (name : TypeName) : Option Fact → Cache
  | none => cache
  | some fact => (cache.put name fact).2

theorem find?_learn {cache : Cache} {name : TypeName} (h : cache.find? name = none)
    (other : TypeName) (answer : Option Fact) :
    (cache.learn name answer).find? other = if other = name then answer else cache.find? other := by
  cases answer with
  | none =>
    by_cases same : other = name
    · simp [learn, same, h]
    · simp [learn, same]
  | some fact => simp [learn, find?_put, h]

end Cache

namespace Engine

variable {π κ ρ ω : Type} [DecidableEq κ]

namespace State

variable (readers : Readers π κ ρ ω) (state : State π κ ρ ω) (project other : π)
  (context : Context π ρ) (name : TypeName)

/-- The facts that are cached for a project. -/
def cached (readers : Readers π κ ρ ω) (state : State π κ ρ ω) (project : π) : Facts :=
  fun name => (state.context? readers project).bind fun context => context.cache.find? name

theorem cached_congr {readers : Readers π κ ρ ω} {project other : π}
    (same : readers.key other = readers.key project) :
    state.cached readers other = state.cached readers project := by
  unfold cached context?
  rw [same]

theorem cached_of_context? {readers : Readers π κ ρ ω} {state : State π κ ρ ω} {project : π}
    {context : Context π ρ} (known : state.context? readers project = some context) :
    state.cached readers project = context.cache.find? := by
  funext name
  simp [cached, known]

theorem context?_setContext :
    (state.setContext readers project context).context? readers other =
      if readers.key other = readers.key project then some context
      else state.context? readers other :=
  lookup_replaceEntry _ _ _ _

@[simp] theorem trace_setContext : (state.setContext readers project context).trace = state.trace :=
  rfl

theorem cached_setContext :
    (state.setContext readers project context).cached readers other =
      if readers.key other = readers.key project then context.cache.find?
      else state.cached readers other := by
  funext name
  unfold cached
  rw [context?_setContext]
  split <;> simp

/-- A context with the facts that were cached before changes none of them. -/
theorem cached_setContext_of_same {readers : Readers π κ ρ ω} {state : State π κ ρ ω} {project : π}
    {context : Context π ρ} (same : context.cache.find? = state.cached readers project)
    (other : π) :
    (state.setContext readers project context).cached readers other =
      state.cached readers other := by
  rw [cached_setContext]
  split
  case isTrue e => rw [same, cached_congr state e]
  case isFalse => rfl

/-- A new project has no facts yet. -/
theorem find?_contextOrNew :
    (state.contextOrNew readers project).cache.find? = state.cached readers project := by
  funext name
  unfold contextOrNew cached
  cases state.context? readers project with
  | none => rfl
  | some context => rfl

/-! ### Looks at the cache only -/

theorem lookCached_fst :
    (state.lookCached readers project name).1 = state.cached readers project name := by
  unfold lookCached cached
  cases state.context? readers project with
  | none => rfl
  | some context => simp

@[simp] theorem trace_lookCached :
    (state.lookCached readers project name).2.trace = state.trace := by
  unfold lookCached
  cases state.context? readers project <;> rfl

@[simp] theorem world_lookCached :
    (state.lookCached readers project name).2.world = state.world := by
  unfold lookCached
  cases state.context? readers project <;> rfl

@[simp] theorem cached_lookCached :
    (state.lookCached readers project name).2.cached readers other =
      state.cached readers other := by
  unfold lookCached
  cases known : state.context? readers project with
  | none => rfl
  | some context =>
    refine cached_setContext_of_same ?_ other
    funext name
    simp [cached_of_context? known]

/-! ### Looks that may read -/

variable {readers state project name}

/-- A look at a cached fact does not read. -/
theorem lookFull_of_cached {fact : Fact} (known : state.cached readers project name = some fact) :
    state.lookFull readers project name = state.lookCached readers project name := by
  obtain ⟨context, here, found⟩ := Option.bind_eq_some_iff.mp known
  simp [lookFull, lookCached, contextOrNew, here, Cache.get_of_find?_eq_some found]

/-- A look at anything else asks the reader, which is made now if there is none. -/
theorem lookFull_of_not_cached {written : π} {reader reader' : ρ} {taken : State π κ ρ ω}
    {answer : Option Fact} {world : ω} (unknown : state.cached readers project name = none)
    (take : state.takeReader readers project (state.contextOrNew readers project) =
      ((written, reader), taken))
    (read : readers.read reader name taken.world = (answer, reader', world)) :
    state.lookFull readers project name =
      (answer,
        { taken with world, trace := taken.trace ++ [Event.read written name answer] }.setContext
          readers project
          { state.contextOrNew readers project with
            cache :=
              { (state.contextOrNew readers project).cache with
                misses := (state.contextOrNew readers project).cache.misses + 2 }.learn name answer
            reader := some (written, reader') }) := by
  have missing : ∀ misses, Cache.find?
      { (state.contextOrNew readers project).cache with misses } name = none := by
    intro misses
    rw [← unknown, ← find?_contextOrNew]
    rfl
  -- The reader is taken from the context whatever its counters say.
  have take' : ∀ cache, state.takeReader readers project
      { state.contextOrNew readers project with cache } = ((written, reader), taken) :=
    fun _ => take
  unfold lookFull readFact
  simp only [Cache.get_of_find?_eq_none (missing _), take', read]
  cases answer with
  | none => rfl
  | some fact => simp [Cache.put, Cache.learn, missing]

omit [DecidableEq κ] in
/-- Taking a reader makes one at most, and changes nothing that is remembered. -/
theorem takeReader_cases {context : Context π ρ} {taken : State π κ ρ ω} {reader : π × ρ}
    (take : state.takeReader readers project context = (reader, taken)) :
    taken.contexts = state.contexts ∧
      (taken.trace = state.trace ∨ taken.trace = state.trace ++ [Event.create project]) := by
  unfold takeReader at take
  split at take
  · cases take
    exact ⟨rfl, .inl rfl⟩
  · cases take
    exact ⟨rfl, .inr rfl⟩

/-- The answer of a look that reads is that of some reader at some time. -/
theorem exists_lookFull_fst (unknown : state.cached readers project name = none) :
    ∃ reader world,
      (state.lookFull readers project name).1 = (readers.read reader name world).1 := by
  rcases take : state.takeReader readers project (state.contextOrNew readers project) with
    ⟨⟨written, reader⟩, taken⟩
  rw [lookFull_of_not_cached unknown take rfl]
  exact ⟨reader, taken.world, rfl⟩

/-- A look that reads caches the fact it gives, and only that. -/
theorem cached_lookFull_of_not_cached (unknown : state.cached readers project name = none)
    (other : π) (type : TypeName) :
    (state.lookFull readers project name).2.cached readers other type =
      if readers.key other = readers.key project ∧ type = name then
        (state.lookFull readers project name).1
      else state.cached readers other type := by
  rcases take : state.takeReader readers project (state.contextOrNew readers project) with
    ⟨⟨written, reader⟩, taken⟩
  obtain ⟨contexts, -⟩ := takeReader_cases take
  have before : ∀ which, (state.contextOrNew readers project).cache.find? which =
      state.cached readers project which := fun which => congrFun (find?_contextOrNew ..) which
  rw [lookFull_of_not_cached unknown take rfl, cached_setContext]
  by_cases same : readers.key other = readers.key project
  · rw [if_pos same, Cache.find?_learn (by rw [← unknown, ← before]; rfl)]
    by_cases here : type = name
    · simp [same, here]
    · rw [if_neg here, if_neg (by simp [here]), cached_congr state same, ← before]
      rfl
  · simp only [same, if_false, false_and]
    simp [cached, context?, contexts]

end State

/-- Whether an event is the making of a reader or a question to one. -/
def Event.isFetch : Event π → Bool
  | .create _ => true
  | .read _ _ _ => true
  | .release _ _ => false
  | .forget _ _ => false

namespace State

variable (readers : Readers π κ ρ ω) (state : State π κ ρ ω) (project : π)

/-- All that a look does, as seen from outside, is to make readers and ask them. -/
theorem trace_lookFull (name : TypeName) :
    ∃ events, (state.lookFull readers project name).2.trace = state.trace ++ events ∧
      ∀ event ∈ events, event.isFetch = true := by
  cases known : state.cached readers project name with
  | some fact =>
    rw [lookFull_of_cached known]
    exact ⟨[], by simp, by simp⟩
  | none =>
    rcases take : state.takeReader readers project (state.contextOrNew readers project) with
      ⟨⟨written, reader⟩, taken⟩
    rcases read : readers.read reader name taken.world with ⟨answer, reader', world⟩
    rw [lookFull_of_not_cached known take read]
    obtain ⟨-, same | created⟩ := takeReader_cases take
    · exact ⟨[Event.read written name answer], by simp [same], by simp [Event.isFetch]⟩
    · exact ⟨[Event.create project, Event.read written name answer], by simp [created],
        by simp [Event.isFetch]⟩

/-! ### Releasing and forgetting -/

@[simp] theorem cached_cleanup (other : π) :
    (state.cleanup readers project).cached readers other = state.cached readers other := by
  unfold cleanup
  split
  · rfl
  case h_2 context known =>
    split
    · rfl
    · refine (cached_setContext_of_same ?_ other).trans rfl
      exact (cached_of_context? known).symm

/-- All that releasing does, as seen from outside, is to release. -/
theorem trace_cleanup :
    (state.cleanup readers project).trace = state.trace ∨
      ∃ written, (state.cleanup readers project).trace =
        state.trace ++ [Event.release written .cleanup] := by
  unfold cleanup
  split
  · exact .inl rfl
  · split
    · exact .inl rfl
    · exact .inr ⟨_, rfl⟩

/-- Forgetting a project leaves the facts of the others. -/
theorem cached_clear_of_ne {other : π} (differs : readers.key other ≠ readers.key project) :
    (state.clear readers project).cached readers other = state.cached readers other := by
  have lookup := lookup_removeEntry_of_ne differs state.contexts
  unfold clear cached context?
  split
  · rfl
  · split <;> simp [lookup]

end State

end Engine

end TypeLineage
