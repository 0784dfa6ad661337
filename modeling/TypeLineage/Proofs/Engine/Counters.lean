import TypeLineage.Proofs.Engine.Looks

/-!
# Counters make no difference

Looks at the cache only leave everything as it was, but for the counters of hits and misses. No look
depends on these, so what follows such looks is what would have been without them.
-/

namespace TypeLineage

/-- Where a fact is stored does not depend on the counters. -/
theorem Cache.entries_learn {cache twin : Cache} (same : cache.entries = twin.entries)
    (name : TypeName) (answer : Option Fact) :
    (cache.learn name answer).entries = (twin.learn name answer).entries := by
  have found : cache.find? name = twin.find? name := by rw [find?, find?, same]
  cases answer with
  | none => exact same
  | some fact =>
    unfold learn put
    rw [found]
    cases twin.find? name <;> simp [same]

namespace Engine

variable {π κ ρ ω : Type}

/-- A context without its counters. -/
def Context.uncounted (context : Context π ρ) : Context π ρ :=
  { context with cache := { entries := context.cache.entries } }

theorem Context.uncounted_eq_iff {context twin : Context π ρ} :
    context.uncounted = twin.uncounted ↔ context.project = twin.project ∧
      context.cache.entries = twin.cache.entries ∧ context.reader = twin.reader := by
  simp [uncounted]

variable [DecidableEq κ] {readers : Readers π κ ρ ω}

/-- The same but for counters. -/
structure State.Alike (readers : Readers π κ ρ ω) (state twin : State π κ ρ ω) : Prop where
  /-- The world. -/
  world : state.world = twin.world
  /-- What the engine has done. -/
  trace : state.trace = twin.trace
  /-- What is remembered. -/
  contexts : ∀ project, (state.context? readers project).map Context.uncounted =
    (twin.context? readers project).map Context.uncounted

namespace State

variable {state twin : State π κ ρ ω}

theorem Alike.refl (readers : Readers π κ ρ ω) (state : State π κ ρ ω) :
    Alike readers state state :=
  ⟨rfl, rfl, fun _ => rfl⟩

theorem Alike.trans {third : State π κ ρ ω} (h : Alike readers state twin)
    (h' : Alike readers twin third) : Alike readers state third :=
  ⟨h.world.trans h'.world, h.trace.trans h'.trace,
    fun project => (h.contexts project).trans (h'.contexts project)⟩

theorem Alike.symm (h : Alike readers state twin) : Alike readers twin state :=
  ⟨h.world.symm, h.trace.symm, fun project => (h.contexts project).symm⟩

theorem Alike.cached (h : Alike readers state twin) (project : π) :
    state.cached readers project = twin.cached readers project := by
  have uncounted : ∀ other : State π κ ρ ω, other.cached readers project = fun name =>
      ((other.context? readers project).map Context.uncounted).bind fun context =>
        context.cache.find? name := by
    intro other
    funext name
    unfold State.cached
    cases other.context? readers project <;> rfl
  rw [uncounted state, uncounted twin, h.contexts project]

theorem Alike.contextOrNew (h : Alike readers state twin) (project : π) :
    (state.contextOrNew readers project).uncounted =
      (twin.contextOrNew readers project).uncounted := by
  have same := h.contexts project
  unfold State.contextOrNew
  cases known : state.context? readers project <;> cases known' : twin.context? readers project
  all_goals simp_all

theorem Alike.setContext (h : Alike readers state twin) (project : π)
    {context context' : Context π ρ} (same : context.uncounted = context'.uncounted) :
    Alike readers (state.setContext readers project context)
      (twin.setContext readers project context') := by
  refine ⟨h.world, h.trace, fun other => ?_⟩
  rw [context?_setContext, context?_setContext]
  split
  · exact congrArg some same
  · exact h.contexts other

/-- A look at the cache only changes nothing but counters. -/
theorem alike_lookCached (state : State π κ ρ ω) (project : π) (name : TypeName) :
    Alike readers (state.lookCached readers project name).2 state := by
  refine ⟨by simp, by simp, fun other => ?_⟩
  unfold lookCached
  cases known : state.context? readers project with
  | none => rfl
  | some context =>
    simp only [context?_setContext]
    split
    case isTrue same =>
      have entries : (context.cache.get name).2.entries = context.cache.entries := by
        unfold Cache.get
        cases context.cache.find? name <;> rfl
      rw [context?, same, ← context?, known]
      simp [Context.uncounted, entries]
    case isFalse => rfl

theorem Alike.takeReader (h : Alike readers state twin) {project : π}
    {context context' : Context π ρ} (same : context.reader = context'.reader) {reader : π × ρ}
    {taken : State π κ ρ ω}
    (take : state.takeReader readers project context = (reader, taken)) :
    ∃ taken', twin.takeReader readers project context' = (reader, taken') ∧
      Alike readers taken taken' := by
  unfold State.takeReader at take ⊢
  rw [← same]
  cases held : context.reader with
  | some held =>
    simp only [held] at take
    cases take
    exact ⟨twin, rfl, h⟩
  | none =>
    simp only [held] at take
    cases take
    rw [h.world, h.trace]
    exact ⟨_, rfl, rfl, rfl, h.contexts⟩

/-- Looks that may read give the same fact whatever the counters are, and have the same effect. -/
theorem Alike.lookFull (h : Alike readers state twin) (project : π) (name : TypeName) :
    (state.lookFull readers project name).1 = (twin.lookFull readers project name).1 ∧
      Alike readers (state.lookFull readers project name).2
        (twin.lookFull readers project name).2 := by
  cases known : state.cached readers project name with
  | some fact =>
    have known' : twin.cached readers project name = some fact := h.cached project ▸ known
    rw [lookFull_of_cached known, lookFull_of_cached known', lookCached_fst, lookCached_fst,
      h.cached project]
    exact ⟨rfl, ((alike_lookCached state project name).trans h).trans
      (alike_lookCached twin project name).symm⟩
  | none =>
    have known' : twin.cached readers project name = none := h.cached project ▸ known
    obtain ⟨project_eq, entries_eq, reader_eq⟩ :=
      Context.uncounted_eq_iff.mp (h.contextOrNew project)
    rcases take : state.takeReader readers project (state.contextOrNew readers project) with
      ⟨⟨written, reader⟩, taken⟩
    obtain ⟨taken', take', alike⟩ := h.takeReader reader_eq take
    rcases read : readers.read reader name taken.world with ⟨answer, reader', world⟩
    rw [lookFull_of_not_cached known take read,
      lookFull_of_not_cached known' take' (alike.world ▸ read)]
    refine ⟨rfl, ?_⟩
    apply Alike.setContext
    · exact ⟨rfl, by simp [alike.trace], alike.contexts⟩
    · refine Context.uncounted_eq_iff.mpr ⟨project_eq, Cache.entries_learn ?_ name answer, rfl⟩
      exact entries_eq

end State

/-- States that are the same but for counters stay so through looks that may read. -/
theorem simulates_lookFull (readers : Readers π κ ρ ω) (project : π) :
    Simulates (State.Alike readers) (look readers .full project) (look readers .full project) :=
  fun name _ _ alike => alike.lookFull project name

/-- A walk over the cache only changes nothing but counters. -/
theorem keeps_alike_lookCached (project : π) (state : State π κ ρ ω) :
    Keeps (look readers .cachedOnly project) fun state' => State.Alike readers state' state :=
  fun name state' alike => (State.alike_lookCached state' project name).trans alike

end Engine

end TypeLineage
