import TypeLineage.Proofs.Engine.Coupling

/-!
# Images of engines

The engine knows nothing of its readers but what their operations do, and it does not look back at
what it has done. So if something is left out of the readers and of the world that they share, and
other events are put before its own, the engine does just the same in this image of its state.
-/

namespace TypeLineage.Engine

open State

variable {π κ ρ ω ρ' ω' : Type}

/-- The operations of the second readers do to the images of readers and worlds what those of the
first do to the originals. -/
structure Readers.MapsTo (readers : Readers π κ ρ ω) (readers' : Readers π κ ρ' ω') (f : ρ → ρ')
    (g : ω → ω') : Prop where
  /-- The projects are the same. -/
  key : ∀ project, readers'.key project = readers.key project
  /-- Making a reader. -/
  create : ∀ project world,
    readers'.create project (g world) = (readers.create project world).map f g
  /-- Asking it. -/
  read : ∀ reader name world,
    readers'.read (f reader) name (g world) = (readers.read reader name world).map id (Prod.map f g)
  /-- Releasing it. -/
  release : ∀ reader world,
    readers'.release (f reader) (g world) = (readers.release reader world).map f g

theorem Readers.MapsTo.refl (readers : Readers π κ ρ ω) : readers.MapsTo readers id id :=
  ⟨fun _ => rfl, fun _ _ => rfl, fun _ _ _ => rfl, fun _ _ => rfl⟩

/-- The image of a context has the image of its reader. -/
def Context.image (f : ρ → ρ') (context : Context π ρ) : Context π ρ' :=
  { context with reader := context.reader.map (Prod.map id f) }

/-- The image of a state, with other events before its own. -/
def State.image (f : ρ → ρ') (g : ω → ω') (past : List (Event π)) (state : State π κ ρ ω) :
    State π κ ρ' ω' where
  contexts := state.contexts.map (Prod.map id (Context.image f))
  world := g state.world
  trace := past ++ state.trace

theorem State.knownProjects_image (f : ρ → ρ') (g : ω → ω') (past : List (Event π))
    (state : State π κ ρ ω) : (state.image f g past).knownProjects = state.knownProjects := by
  rw [knownProjects, knownProjects, image, List.map_map]
  rfl

variable [DecidableEq κ] {readers : Readers π κ ρ ω} {readers' : Readers π κ ρ' ω'} {f : ρ → ρ'}
  {g : ω → ω'}

namespace Readers.MapsTo

variable (h : readers.MapsTo readers' f g) (past : List (Event π)) (state : State π κ ρ ω)
  (project : π) (name : TypeName)

include h

theorem context?_image :
    (state.image f g past).context? readers' project =
      (state.context? readers project).map (Context.image f) := by
  rw [context?, h.key]
  exact lookup_map _ _ _

theorem held_image :
    (state.image f g past).held readers' project =
      (state.held readers project).map (Prod.map id f) := by
  rw [held, h.context?_image, held]
  cases state.context? readers project <;> rfl

theorem cached_image (name : TypeName) :
    (state.image f g past).cached readers' project name = state.cached readers project name := by
  rw [cached, h.context?_image, cached]
  cases state.context? readers project <;> rfl

theorem contextOrNew_image :
    (state.image f g past).contextOrNew readers' project =
      (state.contextOrNew readers project).image f := by
  rw [contextOrNew, h.context?_image, contextOrNew]
  cases state.context? readers project <;> rfl

theorem setContext_image (context : Context π ρ) :
    (state.image f g past).setContext readers' project (context.image f) =
      (state.setContext readers project context).image f g past := by
  unfold setContext
  rw [h.key]
  simp only [State.image, map_replaceEntry]

theorem lookCached_image :
    (state.image f g past).lookCached readers' project name =
      (state.lookCached readers project name).map id (State.image f g past) := by
  unfold lookCached
  rw [h.context?_image]
  cases state.context? readers project with
  | none => rfl
  | some context =>
    exact Prod.ext rfl (h.setContext_image past state project
      { context with cache := (context.cache.get name).2 })

theorem takes_image {made : List (Event π)} {written : π} {reader : ρ} {world : ω}
    (takes : Takes readers state project made written reader world) :
    Takes readers' (state.image f g past) project made written (f reader) (g world) := by
  cases takes with
  | held inUse =>
    exact .held (by rw [h.held_image, inUse]; rfl)
  | made unused =>
    have created := h.create project state.world
    have made : Takes readers' (state.image f g past) project [.create project] project
        (readers'.create project (g state.world)).1 (readers'.create project (g state.world)).2 :=
      .made (by rw [h.held_image, unused]; rfl)
    rwa [created] at made

theorem lookFull_image :
    (state.image f g past).lookFull readers' project name =
      (state.lookFull readers project name).map id (State.image f g past) := by
  have cached := h.cached_image past state project name
  cases known : state.cached readers project name with
  | some fact =>
    rw [lookFull_of_cached known, lookFull_of_cached (cached.trans known), h.lookCached_image]
  | none =>
    obtain ⟨made, written, reader, world, takes⟩ := exists_takes readers state project
    rcases read : readers.read reader name world with ⟨answer, reader', world'⟩
    have read' := h.read reader name world
    rw [read] at read'
    rw [takes.lookFull known read,
      (h.takes_image past state project takes).lookFull (cached.trans known) read',
      h.contextOrNew_image]
    refine Prod.ext rfl ?_
    rw [Prod.map_snd, ← h.setContext_image]
    simp only [State.image, List.append_assoc]
    rfl

theorem cleanup_image :
    (state.image f g past).cleanup readers' project =
      (state.cleanup readers project).image f g past := by
  have held := h.held_image past state project
  cases inUse : state.held readers project with
  | none =>
    rw [inUse] at held
    rw [cleanup_of_not_held inUse, cleanup_of_not_held held]
  | some reader =>
    rw [inUse] at held
    have released := h.release reader.2 state.world
    rw [cleanup_of_held inUse, cleanup_of_held held, h.contextOrNew_image, ← h.setContext_image]
    simp only [State.image, List.append_assoc, id_eq, released]
    rfl

theorem clear_image :
    (state.image f g past).clear readers' project =
      (state.clear readers project).image f g past := by
  have same := h.context?_image past state project
  cases known : state.context? readers project with
  | none =>
    rw [known] at same
    rw [clear_of_not_known known, clear_of_not_known same]
  | some context =>
    rw [known] at same
    cases inUse : context.reader with
    | none =>
      have unused : (context.image f).reader = none := by rw [Context.image, inUse]; rfl
      rw [clear_of_not_held known inUse, clear_of_not_held same unused, h.key]
      simp only [State.image, map_removeEntry, List.append_assoc]
      rfl
    | some reader =>
      have used : (context.image f).reader = some (reader.1, f reader.2) := by
        rw [Context.image, inUse]
        rfl
      have released := h.release reader.2 state.world
      rw [clear_of_held known inUse, clear_of_held same used, h.key]
      simp only [State.image, map_removeEntry, List.append_assoc, released]
      rfl

/-- The engine does the same in the image of its state. -/
theorem couples_image :
    Couples readers readers' (fun _ => True) fun state twin => twin = state.image f g past where
  look pass project _ name state twin same := by
    subst same
    cases pass with
    | cachedOnly => simp [look, h.lookCached_image]
    | full => simp [look, h.lookFull_image]
  cleanup state twin project _ same := same ▸ h.cleanup_image past state project
  clear state twin project _ same := same ▸ h.clear_image past state project

end Readers.MapsTo

end TypeLineage.Engine
