import TypeLineage.Proofs.Engine.Served

/-!
# All that there is to one project

What the engine does for a project, and what can be asked about it, depends on three things only:
the facts that its readers answer from, what is remembered of it, and the project as written for
which the reader in use was made, if there is one. Each operation is described here by what it makes
of these. The state of the reader and that of the world do not occur.
-/

namespace TypeLineage

/-- The cache after a look that may read: the fact is found, or it is learned after two looks for it
in vain. -/
def Cache.consult (cache : Cache) (name : TypeName) (answer : Option Fact) : Cache :=
  match cache.find? name with
  | some _ => (cache.get name).2
  | none => { cache with misses := cache.misses + 2 }.learn name answer

namespace Engine

open Hierarchy

variable {π κ ρ ω : Type}

/-- What a context remembers of its project, leaving the reader aside: how it was written first, and
its cache. -/
def Context.memory (context : Context π ρ) : π × Cache :=
  (context.project, context.cache)

namespace State

/-- What is remembered of all projects, leaving their readers aside. -/
def memories (state : State π κ ρ ω) : List (κ × (π × Cache)) :=
  state.contexts.map (Prod.map id Context.memory)

theorem knownProjects_eq_memories (state : State π κ ρ ω) :
    state.knownProjects = state.memories.map fun entry => entry.2.1 := by
  rw [knownProjects, memories, List.map_map]
  rfl

variable [DecidableEq κ]

section Views

variable (readers : Readers π κ ρ ω) (state : State π κ ρ ω) (project other : π) (name : TypeName)

/-- What is remembered of a project, if it is known. -/
def memory (readers : Readers π κ ρ ω) (state : State π κ ρ ω) (project : π) : Option (π × Cache) :=
  (state.context? readers project).map Context.memory

/-- The project as written for which the reader in use was made. -/
def label (readers : Readers π κ ρ ω) (state : State π κ ρ ω) (project : π) : Option π :=
  (state.held readers project).map Prod.fst

variable {other project} in
theorem memory_congr (same : readers.key other = readers.key project) :
    state.memory readers other = state.memory readers project := by
  rw [memory, memory, context?, context?, same]

variable {other project} in
theorem label_congr (same : readers.key other = readers.key project) :
    state.label readers other = state.label readers project := by
  rw [label, label, held_congr same]

theorem memory_eq_lookup :
    state.memory readers project = state.memories.lookup (readers.key project) :=
  (lookup_map _ _ _).symm

variable {readers state project} in
theorem memory_of_memories {state' : State π κ ρ ω} {entry : π × Cache}
    (set : state'.memories = replaceEntry (readers.key project) entry state.memories) :
    state'.memory readers project = some entry := by
  rw [memory_eq_lookup, set, lookup_replaceEntry, if_pos rfl]

theorem cached_eq_memory :
    state.cached readers project name =
      (state.memory readers project).bind fun entry => entry.2.find? name := by
  unfold cached memory
  cases state.context? readers project <;> rfl

/-- What can be asked about a project. -/
theorem stats_eq_memory :
    state.stats readers project = (state.memory readers project).map fun entry =>
      { cached := entry.2.size
        hits := entry.2.hits
        misses := entry.2.misses
        readerActive := (state.label readers project).isSome } := by
  unfold stats memory label held
  cases state.context? readers project <;> simp [Context.memory]

theorem memories_setContext (context : Context π ρ) :
    (state.setContext readers project context).memories =
      replaceEntry (readers.key project) context.memory state.memories :=
  map_replaceEntry _ _ _ _

theorem label_setContext (context : Context π ρ) :
    (state.setContext readers project context).label readers project =
      context.reader.map Prod.fst := by
  simp [label, held_setContext]

/-- A new project is remembered as it is written, with an empty cache. -/
theorem memory_contextOrNew :
    (state.contextOrNew readers project).memory =
      (state.memory readers project).getD (project, {}) := by
  unfold contextOrNew memory
  cases state.context? readers project <;> rfl

/-- A look at the cache only is counted for a known project. -/
theorem memories_lookCached :
    (state.lookCached readers project name).2.memories =
      match state.memory readers project with
      | none => state.memories
      | some entry =>
        replaceEntry (readers.key project) (entry.1, (entry.2.get name).2) state.memories := by
  unfold lookCached memory
  cases state.context? readers project with
  | none => rfl
  | some context => exact memories_setContext _ _ _ _

theorem memory_lookCached :
    (state.lookCached readers project name).2.memory readers project =
      (state.memory readers project).map fun entry => (entry.1, (entry.2.get name).2) := by
  rw [memory_eq_lookup, memories_lookCached, memory_eq_lookup]
  cases known : state.memories.lookup (readers.key project) with
  | none => exact known
  | some entry => simp [lookup_replaceEntry]

theorem label_lookCached :
    (state.lookCached readers project name).2.label readers project =
      state.label readers project := by
  rw [label, held_lookCached, label]

end Views

variable {readers : Readers π κ ρ ω} {fits : κ → ρ → Prop} {facts : κ → Facts}
  {state state' : State π κ ρ ω} {project other : π} {name : TypeName} {events : List (Event π)}

theorem Touches.memory (h : Touches readers project state state' events)
    (differs : readers.key other ≠ readers.key project) :
    state'.memory readers other = state.memory readers other := by
  rw [State.memory, State.memory, h.others other differs]

theorem Touches.label (h : Touches readers project state state' events)
    (differs : readers.key other ≠ readers.key project) :
    state'.label readers other = state.label readers other := by
  rw [State.label, State.label, h.held differs]

/-- A project that is remembered is known, in one spelling or another. -/
theorem Indexed.known_of_memory (h : state.Indexed readers) (project : π) :
    state.memory readers project = none ∨
      ∃ other ∈ state.knownProjects, readers.key other = readers.key project := by
  cases known : state.context? readers project with
  | none => exact .inl (by simp [State.memory, known])
  | some context =>
    obtain ⟨before, after, same, -⟩ := List.lookup_eq_some_iff.mp known
    have member : (readers.key project, context) ∈ state.contexts := by simp [same]
    exact .inr ⟨context.project, List.mem_map_of_mem member, h.key _ member⟩

/-! ### Looking something up -/

/-- What happens when a look reads: a reader is made if none is in use, and asked. -/
def fetch (label? : Option π) (project : π) (name : TypeName) (answer : Option Fact) :
    List (Event π) :=
  (if label?.isSome then [] else [.create project]) ++
    [.read (label?.getD project) name answer]

/-- A look at what is not cached, by a pass that may read. -/
theorem Served.lookFull_own (h : state.Served readers fits facts)
    (per : readers.AnswerPerProject fits facts)
    (unknown : state.cached readers project name = none) :
    let answer := facts (readers.key project) name
    let looked := (state.lookFull readers project name).2
    let entry := (state.memory readers project).getD (project, {})
    looked.memories = replaceEntry (readers.key project) (entry.1, entry.2.consult name answer)
        state.memories ∧
      looked.label readers project = some ((state.label readers project).getD project) ∧
      looked.trace = state.trace ++ fetch (state.label readers project) project name answer := by
  obtain ⟨made, written, reader, world, takes⟩ := exists_takes readers state project
  rcases read : readers.read reader name world with ⟨answer, reader', world'⟩
  have given : facts (readers.key project) name = answer := by
    rw [← h.lookFull_fst per, takes.lookFull unknown read]
  have missing : (state.contextOrNew readers project).cache.find? name = none := by
    rw [find?_contextOrNew, unknown]
  simp only [given, ← memory_contextOrNew, takes.lookFull unknown read]
  refine ⟨?_, ?_, ?_⟩
  · rw [memories_setContext]
    simp only [Context.memory, Context.told, Cache.consult, missing]
    rfl
  · rw [label_setContext]
    cases takes with
    | held inUse => simp [Context.told, State.label, inUse]
    | made unused => simp [Context.told, State.label, unused]
  · cases takes with
    | held inUse => simp [fetch, State.label, inUse]
    | made unused => simp [fetch, State.label, unused]

/-! ### Letting go -/

@[simp] theorem memories_cleanup : (state.cleanup readers project).memories = state.memories := by
  cases inUse : state.held readers project with
  | none => rw [cleanup_of_not_held inUse]
  | some held =>
    obtain ⟨context, known, -⟩ := Option.bind_eq_some_iff.mp inUse
    have same : state.memory readers project = some context.memory := by
      rw [State.memory, known, Option.map_some]
    have kept : (state.contextOrNew readers project).memory = context.memory := by
      rw [memory_contextOrNew, same, Option.getD_some]
    rw [cleanup_of_held inUse, memories_setContext]
    exact replaceEntry_of_lookup (memory_eq_lookup readers state project ▸ kept ▸ same)

@[simp] theorem memory_cleanup (other : π) :
    (state.cleanup readers project).memory readers other = state.memory readers other := by
  rw [memory_eq_lookup, memories_cleanup, memory_eq_lookup]

theorem label_cleanup (other : π) :
    (state.cleanup readers project).label readers other =
      if readers.key other = readers.key project then none else state.label readers other := by
  rw [State.label, held_cleanup]
  split <;> rfl

theorem trace_cleanup_eq :
    (state.cleanup readers project).trace =
      state.trace ++ (state.label readers project).toList.map fun written =>
        .release written .cleanup := by
  cases inUse : state.held readers project with
  | none => simp [cleanup_of_not_held inUse, State.label, inUse]
  | some held => simp [cleanup_of_held inUse, State.label, inUse]

/-- What happens when a known project is forgotten: the reader in use is released, and the number of
facts is told. -/
def farewell (entry : π × Cache) (label? : Option π) : List (Event π) :=
  (label?.toList.map fun written => .release written .clear) ++ [.forget entry.1 entry.2.size]

theorem trace_clear :
    (state.clear readers project).trace =
      state.trace ++ ((state.memory readers project).toList.flatMap fun entry =>
        farewell entry (state.label readers project)) := by
  cases known : state.context? readers project with
  | none => simp [clear_of_not_known known, State.memory, known]
  | some context =>
    cases inUse : context.reader with
    | none =>
      simp [clear_of_not_held known inUse, State.memory, State.label, State.held, known, inUse,
        farewell, Context.memory]
    | some held =>
      simp [clear_of_held known inUse, State.memory, State.label, State.held, known, inUse,
        farewell, Context.memory]

theorem memories_clear :
    (state.clear readers project).memories =
      removeEntry (readers.key project) state.memories := by
  rw [memories, contexts_clear]
  split
  · exact map_removeEntry _ _ _
  case isFalse unknown =>
    refine (removeEntry_of_lookup ?_).symm
    rw [lookup_map, ← context?, Option.not_isSome_iff_eq_none.mp unknown]
    rfl

theorem Indexed.memory_clear (h : state.Indexed readers) (project : π) :
    (state.clear readers project).memory readers project = none := by
  simp [State.memory, h.context?_clear project]

theorem Indexed.label_clear (h : state.Indexed readers) (project : π) :
    (state.clear readers project).label readers project = none := by
  simp [State.label, State.held, h.context?_clear project]

/-! ### Forgetting everything -/

/-- When projects have been forgotten in some order, only others are left. -/
theorem Indexed.contexts_foldl_clear (h : state.Indexed readers) (order : List π) :
    ∀ entry ∈ (order.foldl (fun state project => state.clear readers project) state).contexts,
      entry ∈ state.contexts ∧ ∀ project ∈ order, readers.key project ≠ entry.1 := by
  induction order generalizing state with
  | nil => simp
  | cons project rest ih =>
    intro entry member
    obtain ⟨left, others⟩ := ih (h.clear project) entry member
    have known : entry ∈ state.contexts := by
      rw [contexts_clear] at left
      split at left
      · exact (removeEntry_sublist _ _).subset left
      · exact left
    refine ⟨known, List.forall_mem_cons.mpr ⟨?_, others⟩⟩
    -- The entry is still there, and that of the project is not.
    rintro same
    have gone := h.context?_clear project
    rw [State.context?, List.lookup_eq_none_iff] at gone
    exact bne_iff_ne.mp (gone entry left) same

/-- In whatever order all projects are forgotten, nothing is left. -/
theorem Indexed.contexts_clearing (h : state.Indexed readers) {order : List π}
    (all : ∀ project ∈ state.knownProjects, project ∈ order) :
    (order.foldl (fun state project => state.clear readers project) state).contexts = [] := by
  refine List.eq_nil_iff_forall_not_mem.mpr fun entry member => ?_
  obtain ⟨known, others⟩ := h.contexts_foldl_clear order entry member
  exact others _ (all _ (List.mem_map_of_mem known)) (h.key entry known)

theorem Indexed.contexts_clearAll (h : state.Indexed readers) :
    (state.clearAll readers).contexts = [] :=
  h.contexts_clearing fun _ member => member

end State

end Engine

end TypeLineage
