import TypeLineage.Proofs.Engine.Apart
import TypeLineage.Proofs.Engine.Telling

/-!
# Engines in a calm world

Readers of files answer from given facts only as long as the files stay as they are. Then all that
is held for a project is so by its facts, as far as its readers are made for it as it is written in
ways that lead to these; what is asked of other projects, and how they are written, makes no
difference. So every question about the project is answered by its facts.
-/

namespace TypeLineage.Engine

open Hierarchy

variable {π κ ρ ω : Type}

/-- The readers made for a project, as it is written in certain ways, answer from its facts while
the world is calm, and no reader at all disturbs it. -/
structure Readers.AnswerWhile (readers : Readers π κ ρ ω) (calm : ω → Prop) (written : π → Prop)
    (fits : ρ → Prop) (facts : Facts) : Prop where
  /-- Making a reader leaves the world calm. -/
  calm_create : ∀ project world, calm world → calm (readers.create project world).2
  /-- So does asking one. -/
  calm_read : ∀ reader name world, calm world → calm (readers.read reader name world).2.2
  /-- So does releasing one. -/
  calm_release : ∀ reader world, calm world → calm (readers.release reader world).2
  /-- A reader fits the project if it is made for it as written in one of these ways. -/
  create : ∀ project world, written project → calm world → fits (readers.create project world).1
  /-- It goes on to fit it when it has been asked. -/
  keeps : ∀ reader name world, calm world → fits reader → fits (readers.read reader name world).2.1
  /-- A reader that fits the project answers from its facts. -/
  answers : ∀ reader name world, calm world → fits reader →
    (readers.read reader name world).1 = facts name

/-- The request asks about a project only as it is written in certain ways. -/
def Request.Spelled (readers : Readers π κ ρ ω) (which : κ) (written : π → Prop) :
    Request π → Prop
  | .ask project _ _ => readers.key project = which → written project
  | .cleanup _ => True
  | .clear _ => True
  | .clearAll => True

variable [DecidableEq κ] {readers : Readers π κ ρ ω} {calm : ω → Prop} {written : π → Prop}
  {fits : ρ → Prop} {facts : Facts} {which : κ} {state state' : State π κ ρ ω} {project : π}

/-- The world is calm, and all that is held under a key is so by its facts. -/
structure State.Calm (readers : Readers π κ ρ ω) (calm : ω → Prop) (fits : ρ → Prop) (facts : Facts)
    (which : κ) (state : State π κ ρ ω) : Prop extends State.Labelled readers state where
  /-- The world is calm. -/
  quiet : calm state.world
  /-- The reader in use fits the project. -/
  fit : ∀ project written reader, state.held readers project = some (written, reader) →
    readers.key project = which → fits reader
  /-- The cached facts are facts of the project. -/
  coherent : ∀ project, readers.key project = which → Grows (state.cached readers project) facts

namespace State

theorem Calm.start {world : ω} (quiet : calm world) (which : κ) :
    (State.start world).Calm readers calm fits facts which where
  toLabelled := .start world
  quiet := quiet
  fit _ _ _ inUse := by simp [held, context?, State.start] at inUse
  coherent _ _ _ _ known := by simp [cached, context?, State.start] at known

/-- Whatever an operation does with readers, the world stays calm. -/
theorem Calm.calm_of_handles (h : state.Calm readers calm fits facts which)
    (per : readers.AnswerWhile calm written fits facts)
    (handles : Handles readers project state state') : calm state'.world := by
  cases handles with
  | idle leaves =>
    rw [leaves.world]
    exact h.quiet
  | @make reader _ world _ name _ unused created read leaves =>
    have quiet := per.calm_read reader name world (by
      have made := per.calm_create project state.world h.quiet
      rwa [created] at made)
    rw [leaves.world]
    rwa [read] at quiet
  | @ask _ reader _ _ name _ used read leaves =>
    have quiet := per.calm_read reader name state.world h.quiet
    rw [leaves.world]
    rwa [read] at quiet
  | @release _ reader _ _ _ used released leaves =>
    have quiet := per.calm_release reader state.world h.quiet
    rw [leaves.world]
    rwa [released] at quiet

/-- And the readers in use go on to fit the project, if it is written as it should be. -/
theorem Calm.fit_of_handles (h : state.Calm readers calm fits facts which)
    (per : readers.AnswerWhile calm written fits facts)
    (spelled : readers.key project = which → written project)
    (handles : Handles readers project state state') (other : π) (label : π) (reader : ρ)
    (used : state'.held readers other = some (label, reader)) (own : readers.key other = which) :
    fits reader := by
  let p : κ → π → ρ → Prop := fun k _ reader => k = which → fits reader
  cases handles with
  | idle leaves =>
    exact leaves.all_held (p := p) h.fit (h.fit project) other label reader used own
  | @make reader₁ _ world _ name _ unused created read leaves =>
    refine leaves.all_held (p := p) h.fit ?_ other label reader used own
    rintro _ _ same here
    cases same
    have made := per.create project state.world (spelled here) h.quiet
    have quiet := per.calm_create project state.world h.quiet
    rw [created] at made quiet
    have asked := per.keeps reader₁ name world quiet made
    rwa [read] at asked
  | @ask _ reader₁ _ _ name _ held read leaves =>
    refine leaves.all_held (p := p) h.fit ?_ other label reader used own
    rintro _ _ same here
    cases same
    have asked := per.keeps reader₁ name state.world h.quiet (h.fit project _ _ held here)
    rwa [read] at asked
  | release held released leaves =>
    exact leaves.all_held (p := p) h.fit (by simp) other label reader used own

/-- A look that may read gives what the facts say. -/
theorem Calm.lookFull_fst (h : state.Calm readers calm fits facts which)
    (per : readers.AnswerWhile calm written fits facts) (own : readers.key project = which)
    (spelled : written project) (name : TypeName) :
    (state.lookFull readers project name).1 = facts name := by
  cases known : state.cached readers project name with
  | some fact =>
    rw [lookFull_of_cached known, lookCached_fst, known, h.coherent project own name fact known]
  | none =>
    obtain ⟨made, label, reader, world, takes⟩ := exists_takes readers state project
    rcases read : readers.read reader name world with ⟨answer, reader', world'⟩
    rw [takes.lookFull known read]
    cases takes with
    | held inUse =>
      have fit := h.fit project label reader inUse own
      rw [← per.answers reader name _ h.quiet fit, read]
    | made unused =>
      have fit := per.create project state.world spelled h.quiet
      have quiet := per.calm_create project state.world h.quiet
      rw [← per.answers _ name _ quiet fit, read]

/-- Whatever is looked up, all goes on as before, if the project is written as it should be. -/
theorem Calm.look (h : state.Calm readers calm fits facts which)
    (per : readers.AnswerWhile calm written fits facts) (pass : Pass)
    (spelled : readers.key project = which → written project) (name : TypeName) :
    (Engine.look readers pass project name state).2.Calm readers calm fits facts which := by
  have handles := handles_look readers state project pass name
  refine ⟨preserves_labelled.look pass project name state h.toLabelled,
    h.calm_of_handles per handles, h.fit_of_handles per spelled handles, ?_⟩
  intro other own
  cases pass with
  | cachedOnly =>
    rw [Engine.look, cached_lookCached]
    exact h.coherent other own
  | full =>
    intro type fact given
    cases known : state.cached readers project name with
    | some _ =>
      rw [Engine.look, lookFull_of_cached known, cached_lookCached] at given
      exact h.coherent other own type fact given
    | none =>
      rw [Engine.look, cached_lookFull_of_not_cached known] at given
      split at given
      case isTrue here =>
        obtain ⟨same, rfl⟩ := here
        have mine : readers.key project = which := same.symm.trans own
        rw [← given, h.lookFull_fst per mine (spelled mine)]
      case isFalse => exact h.coherent other own type fact given

theorem Calm.cleanup (h : state.Calm readers calm fits facts which)
    (per : readers.AnswerWhile calm written fits facts) (project : π) :
    (state.cleanup readers project).Calm readers calm fits facts which := by
  refine ⟨preserves_labelled.cleanup state project h.toLabelled,
    h.calm_of_handles per (handles_cleanup readers state project), ?_, ?_⟩
  · intro other label reader used own
    rw [held_cleanup] at used
    split at used
    · cases used
    · exact h.fit other label reader used own
  · intro other own
    rw [cached_cleanup]
    exact h.coherent other own

theorem Calm.clear (h : state.Calm readers calm fits facts which)
    (per : readers.AnswerWhile calm written fits facts) (project : π) :
    (state.clear readers project).Calm readers calm fits facts which := by
  refine ⟨preserves_labelled.clear state project (.inl trivial) h.toLabelled,
    h.calm_of_handles per (h.handles_clear project), ?_, ?_⟩
  · intro other label reader used own
    rw [h.held_clear] at used
    split at used
    · cases used
    · exact h.fit other label reader used own
  · intro other own type fact known
    rw [h.cached_clear] at known
    split at known
    · cases known
    · exact h.coherent other own type fact known

theorem Calm.clearAll (h : state.Calm readers calm fits facts which)
    (per : readers.AnswerWhile calm written fits facts) :
    (state.clearAll readers).Calm readers calm fits facts which := by
  unfold State.clearAll
  -- The projects are listed beforehand, so the list does not change with the state.
  generalize state.knownProjects = projects
  induction projects generalizing state with
  | nil => exact h
  | cons project rest ih => exact ih (h.clear per project)

theorem Calm.finish (h : state.Calm readers calm fits facts which)
    (per : readers.AnswerWhile calm written fits facts) (cleanup : Bool) :
    (state.finish readers project cleanup).Calm readers calm fits facts which := by
  unfold State.finish
  split
  · exact h.cleanup per project
  · exact h

/-! ### Requests -/

/-- One request leaves all as it should be. -/
theorem Calm.perform (h : state.Calm readers calm fits facts which)
    (per : readers.AnswerWhile calm written fits facts) {request : Request π}
    (spelled : request.Spelled readers which written) {answer? : Option Answer}
    (performed : state.perform readers request = some (answer?, state')) :
    state'.Calm readers calm fits facts which := by
  cases request with
  | ask project question cleanup =>
    obtain ⟨⟨answer, state₁⟩, asked, performed⟩ := Option.bind_eq_some_iff.mp performed
    cases performed
    obtain ⟨⟨answer₁, state₂⟩, answered, asked⟩ := Option.bind_eq_some_iff.mp asked
    cases asked
    have looks : ∀ pass, Keeps (Engine.look readers pass project)
        (State.Calm readers calm fits facts which) := by
      intro pass name state valid
      exact valid.look per pass spelled name
    exact (keeps_of_answer looks h answered).finish per cleanup
  | cleanup project =>
    cases performed
    exact h.cleanup per project
  | clear project =>
    cases performed
    exact h.clear per project
  | clearAll =>
    cases performed
    exact h.clearAll per

/-- So do requests one after the other. -/
theorem Calm.run (h : state.Calm readers calm fits facts which)
    (per : readers.AnswerWhile calm written fits facts) {requests : List (Request π)}
    (spelled : ∀ request ∈ requests, request.Spelled readers which written)
    {answers : List (Option Answer)}
    (ran : state.run readers requests = some (answers, state')) :
    state'.Calm readers calm fits facts which := by
  induction requests generalizing state answers with
  | nil =>
    cases ran
    exact h
  | cons request rest ih =>
    obtain ⟨⟨answer?, state₁⟩, performed, ran⟩ := Option.bind_eq_some_iff.mp ran
    obtain ⟨⟨answers', state₂⟩, ran', ran⟩ := Option.bind_eq_some_iff.mp ran
    cases ran
    have calm₁ := h.perform per (spelled request (.head _)) performed
    exact ih calm₁ (fun other member => spelled other (.tail _ member)) ran'

end State

/-- Facts that lead from any type to finitely many. -/
def FinitelyNamed (facts : Facts) : Prop :=
  ∀ start, ∃ names : Finset TypeName, start ∈ names ∧
    ∀ name fact, facts name = some fact → Within names fact

/-- In a calm world, all that is known of a project is what its facts say. -/
theorem Readers.AnswerWhile.grounded (per : readers.AnswerWhile calm written fits facts)
    (finite : FinitelyNamed facts) (spelled : written project) :
    Grounded readers project (State.Calm readers calm fits facts (readers.key project)) facts where
  lookCached name _ valid := valid.look per .cachedOnly (fun _ => spelled) name
  lookFull :=
    { keeps := fun name _ valid => valid.look per .full (fun _ => spelled) name
      mirrors := fun name _ valid => valid.lookFull_fst per rfl spelled name }
  coherent _ valid := valid.coherent project rfl
  finite start := by
    obtain ⟨names, member, within⟩ := finite start
    refine ⟨names, member, ?_, ?_⟩
    · exact fun name _ valid => valid.look per .full (fun _ => spelled) name
    · intro name state fact valid _ given
      have told : (State.lookFull readers state project name).1 = facts name :=
        valid.lookFull_fst per rfl spelled name
      exact within name fact (told ▸ given)

/-- Every question is answered, by the facts, and leaves all as it should be. -/
theorem State.Calm.exists_ask (h : state.Calm readers calm fits facts (readers.key project))
    (per : readers.AnswerWhile calm written fits facts) (finite : FinitelyNamed facts)
    (spelled : written project) (question : Question) (cleanup : Bool) :
    ∃ answer after, state.ask readers project question cleanup = some (answer, after) ∧
      after.Calm readers calm fits facts (readers.key project) ∧ Tells facts question answer := by
  obtain ⟨answer, after, answered, calm', tells⟩ :=
    (per.grounded finite spelled).exists_answer h question
  exact ⟨answer, _, ask_of_answer answered, calm'.finish per cleanup, tells⟩

end TypeLineage.Engine
