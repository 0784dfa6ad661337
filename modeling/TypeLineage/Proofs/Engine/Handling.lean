import TypeLineage.Proofs.Engine.Index
import TypeLineage.Proofs.Engine.Reading

/-!
# What operations do with readers

Whatever an operation on a project does, it does one of four things with readers: it calls none, it
makes one and asks it at once, it asks the one in use, or it releases that one. What is proved of
readers is proved for these four, and holds of all operations by that.
-/

namespace TypeLineage.Engine

open State

variable {π κ ρ ω : Type}

/-- Whether an event is a call: a reader is made, asked or released. -/
def Event.isCall : Event π → Bool
  | .create _ => true
  | .read _ _ _ => true
  | .release _ _ => true
  | .forget _ _ => false

/-- How many projects have a reader in use. -/
def State.inUse (state : State π κ ρ ω) : Nat :=
  state.contexts.countP fun entry => entry.2.reader.isSome

variable [DecidableEq κ]

/-- What an operation on a project leaves: the reader in use, the world, and the calls that it has
made. -/
structure State.Leaves (readers : Readers π κ ρ ω) (project : π) (state state' : State π κ ρ ω)
    (reader? : Option (π × ρ)) (world : ω) (calls : List (Event π)) : Prop where
  /-- The project has this reader in use, and all others have what they had. -/
  held : ∀ other, state'.held readers other =
    if readers.key other = readers.key project then reader? else state.held readers other
  /-- The world is this. -/
  world : state'.world = world
  /-- The calls are these. -/
  calls : state'.trace.filter Event.isCall = state.trace.filter Event.isCall ++ calls
  /-- One project is counted differently if need be. -/
  inUse : state'.inUse + (state.held readers project).isSome.toNat =
    state.inUse + reader?.isSome.toNat

/-- What an operation on a project does with readers. -/
inductive State.Handles (readers : Readers π κ ρ ω) (project : π) (state state' : State π κ ρ ω) :
    Prop where
  /-- It calls none. -/
  | idle (leaves : Leaves readers project state state' (state.held readers project) state.world [])
  /-- It makes one, and asks it at once. -/
  | make {reader reader' : ρ} {world world' : ω} {name : TypeName} {answer : Option Fact}
      (unused : state.held readers project = none)
      (created : readers.create project state.world = (reader, world))
      (read : readers.read reader name world = (answer, reader', world'))
      (leaves : Leaves readers project state state' (some (project, reader')) world'
        [.create project, .read project name answer])
  /-- It asks the one in use. -/
  | ask {written : π} {reader reader' : ρ} {world' : ω} {name : TypeName} {answer : Option Fact}
      (used : state.held readers project = some (written, reader))
      (read : readers.read reader name state.world = (answer, reader', world'))
      (leaves : Leaves readers project state state' (some (written, reader')) world'
        [.read written name answer])
  /-- It releases the one in use. -/
  | release {written : π} {reader reader' : ρ} {world' : ω} {cause : Release}
      (used : state.held readers project = some (written, reader))
      (released : readers.release reader state.world = (reader', world'))
      (leaves : Leaves readers project state state' none world' [.release written cause])

namespace State

variable {readers : Readers π κ ρ ω} {state state' : State π κ ρ ω} {project : π}

theorem Leaves.held_self {reader? : Option (π × ρ)} {world : ω} {calls : List (Event π)}
    (h : Leaves readers project state state' reader? world calls) :
    state'.held readers project = reader? := by
  rw [h.held, if_pos rfl]

/-- What is so of the readers in use, and of the one that the project is left with, is so of those
in use afterwards. -/
theorem Leaves.all_held {p : κ → π → ρ → Prop} {reader? : Option (π × ρ)} {world : ω}
    {calls : List (Event π)} (h : Leaves readers project state state' reader? world calls)
    (before : ∀ other written reader, state.held readers other = some (written, reader) →
      p (readers.key other) written reader)
    (left : ∀ written reader, reader? = some (written, reader) →
      p (readers.key project) written reader)
    (other written : π) (reader : ρ) (used : state'.held readers other = some (written, reader)) :
    p (readers.key other) written reader := by
  rw [h.held] at used
  split at used
  case isTrue same => exact same ▸ left written reader used
  case isFalse => exact before other written reader used

/-- What is so of a reader when it has been made and asked, and stays so when it is asked again, is
so of all readers in use. -/
theorem Handles.all_held {p : κ → π → ρ → Prop} (h : Handles readers project state state')
    (make : ∀ project name world world',
      p (readers.key project) project
        (readers.read (readers.create project world).1 name world').2.1)
    (ask : ∀ key written reader name world, p key written reader →
      p key written (readers.read reader name world).2.1)
    (before : ∀ other written reader, state.held readers other = some (written, reader) →
      p (readers.key other) written reader) :
    ∀ other written reader, state'.held readers other = some (written, reader) →
      p (readers.key other) written reader := by
  cases h with
  | idle leaves => exact leaves.all_held before (before project)
  | @make _ _ world _ name _ unused created read leaves =>
    refine leaves.all_held before ?_
    rintro _ _ same
    cases same
    have made := make project name state.world world
    rwa [created, read] at made
  | @ask _ _ _ _ name _ used read leaves =>
    refine leaves.all_held before ?_
    rintro _ _ same
    cases same
    have asked := ask _ _ _ name state.world (before project _ _ used)
    rwa [read] at asked
  | release used released leaves => exact leaves.all_held before (by simp)

/-! ### How many readers are in use -/

variable (readers state project) in
theorem any_context? :
    (state.context? readers project).any (fun context => context.reader.isSome) =
      (state.held readers project).isSome := by
  unfold held
  cases state.context? readers project <;> rfl

variable (readers state project) in
theorem inUse_setContext (context : Context π ρ) :
    (state.setContext readers project context).inUse + (state.held readers project).isSome.toNat =
      state.inUse + context.reader.isSome.toNat := by
  rw [← any_context?]
  exact countP_replaceEntry (fun context : Context π ρ => context.reader.isSome) _ _ _

variable (readers state project) in
theorem inUse_lookCached (name : TypeName) :
    (state.lookCached readers project name).2.inUse = state.inUse := by
  unfold lookCached
  cases known : state.context? readers project with
  | none => rfl
  | some context =>
    have count := inUse_setContext readers state project
      { context with cache := (context.cache.get name).2 }
    rw [← any_context?, known, Option.any_some] at count
    exact Nat.add_right_cancel count

variable (readers state project) in
theorem inUse_clear :
    (state.clear readers project).inUse + (state.held readers project).isSome.toNat =
      state.inUse := by
  rw [← any_context?]
  unfold inUse
  rw [contexts_clear]
  split
  case isTrue => exact countP_removeEntry (fun context : Context π ρ => context.reader.isSome) _ _
  case isFalse unknown => simp [Option.not_isSome_iff_eq_none.mp unknown]

variable (readers state project) in
/-- Whether a reader is in use is what can be asked about a project. -/
theorem any_stats :
    (state.stats readers project).any Stats.readerActive =
      (state.held readers project).isSome := by
  unfold stats held
  cases state.context? readers project <;> rfl

theorem Indexed.inUse_eq (h : state.Indexed readers) :
    state.inUse = state.knownProjects.countP fun project =>
      (state.stats readers project).any Stats.readerActive := by
  rw [inUse, knownProjects, List.countP_map]
  refine List.countP_congr fun entry member => ?_
  have known : state.context? readers entry.2.project = some entry.2 := by
    rw [context?, h.key entry member]
    exact lookup_of_mem h.nodup member
  simp [any_stats, held, known]

/-! ### Each operation -/

variable (readers state project) in
theorem handles_refl : Handles readers project state state := by
  refine .idle ⟨fun other => ?_, rfl, by simp, rfl⟩
  split
  case isTrue same => exact held_congr same
  case isFalse => rfl

variable (readers state project) in
theorem handles_lookCached (name : TypeName) :
    Handles readers project state (state.lookCached readers project name).2 := by
  refine .idle ⟨fun other => ?_, by simp, by simp, by rw [inUse_lookCached]⟩
  rw [held_lookCached]
  split
  case isTrue same => exact held_congr same
  case isFalse => rfl

variable (readers state project) in
theorem handles_look (pass : Pass) (name : TypeName) :
    Handles readers project state (look readers pass project name state).2 := by
  cases known : state.cached readers project name with
  | some fact =>
    rw [look_of_cached known]
    exact handles_lookCached readers state project name
  | none =>
    cases pass with
    | cachedOnly => exact handles_lookCached readers state project name
    | full =>
      obtain ⟨made, written, reader, world, takes⟩ := exists_takes readers state project
      rcases read : readers.read reader name world with ⟨answer, reader', world'⟩
      have leaves : Leaves readers project state (look readers .full project name state).2
          (some (written, reader')) world'
          ((made ++ [Event.read written name answer]).filter Event.isCall) := by
        rw [look, takes.lookFull known read]
        refine ⟨fun other => held_setContext .., rfl, List.filter_append .., ?_⟩
        exact inUse_setContext readers state project _
      cases takes with
      | held used => exact .ask used read leaves
      | made unused => exact .make unused rfl read leaves

variable (readers state project) in
theorem handles_cleanup : Handles readers project state (state.cleanup readers project) := by
  cases used : state.held readers project with
  | none =>
    rw [cleanup_of_not_held used]
    exact handles_refl readers state project
  | some reader =>
    have leaves : Leaves readers project state (state.cleanup readers project) none
        (readers.release reader.2 state.world).2 [.release reader.1 .cleanup] := by
      rw [cleanup_of_held used]
      refine ⟨fun other => held_setContext .., rfl, List.filter_append .., ?_⟩
      exact inUse_setContext readers state project _
    exact .release used rfl leaves

theorem Indexed.held_clear (h : state.Indexed readers) (project other : π) :
    (state.clear readers project).held readers other =
      if readers.key other = readers.key project then none else state.held readers other := by
  split
  case isTrue same =>
    rw [held_congr same, State.held, h.context?_clear project]
    rfl
  case isFalse differs =>
    rw [State.held, State.held, context?, contexts_clear]
    split
    · rw [lookup_removeEntry_of_ne differs]
      rfl
    · rfl

theorem Indexed.handles_clear (h : state.Indexed readers) (project : π) :
    Handles readers project state (state.clear readers project) := by
  have held := h.held_clear project
  have count := inUse_clear readers state project
  cases known : state.context? readers project with
  | none =>
    rw [clear_of_not_known known]
    exact handles_refl readers state project
  | some context =>
    have same : state.held readers project = context.reader := by rw [State.held, known]; rfl
    cases used : context.reader with
    | none =>
      have unused := same.trans used
      rw [clear_of_not_held known used] at held count ⊢
      refine .idle ⟨by rwa [unused], rfl, ?_, ?_⟩
      · simp [Event.isCall]
      · rwa [unused] at count ⊢
    | some reader =>
      rw [clear_of_held known used] at held count ⊢
      have leaves : Leaves readers project state _ none (readers.release reader.2 state.world).2
          [.release reader.1 .clear] := ⟨held, rfl, List.filter_append .., count⟩
      exact .release (same.trans used) rfl leaves

end State

end TypeLineage.Engine
