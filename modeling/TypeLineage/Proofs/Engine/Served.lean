import TypeLineage.Fact.Table
import TypeLineage.Proofs.Engine.Apart
import TypeLineage.Query

/-!
# Readers that answer from tables

Every project has facts of its own, and a reader that was made for it answers from these, whatever
its state and that of the world. So all that the engine ever holds for a project is so by its facts,
and a look that may read gives what they say. If the facts of each project are a finite table, then
every question is answered, and every run of requests comes to an end.
-/

namespace TypeLineage.Engine

open Hierarchy Look

variable {π κ ρ ω : Type}

/-- The readers made for a project answer from the facts of that project. Which readers those are,
in all their states, is up to the family. -/
structure Readers.AnswerPerProject (readers : Readers π κ ρ ω) (fits : κ → ρ → Prop)
    (facts : κ → Facts) : Prop where
  /-- A reader fits the project that it is made for. -/
  create : ∀ project world, fits (readers.key project) (readers.create project world).1
  /-- It goes on to fit it when it has been asked. -/
  keeps : ∀ key reader name world, fits key reader → fits key (readers.read reader name world).2.1
  /-- A reader that fits a project answers from its facts. -/
  answers : ∀ key reader name world, fits key reader →
    (readers.read reader name world).1 = facts key name

/-- Readers that always answer from the same facts do so for every project. -/
theorem Readers.AnswerFrom.perProject {readers : Readers π κ ρ ω} {facts : Facts}
    (answers : readers.AnswerFrom facts) :
    readers.AnswerPerProject (fun _ _ => True) fun _ => facts where
  create _ _ := trivial
  keeps _ _ _ _ _ := trivial
  answers _ reader name world _ := answers reader name world

/-- Readers that each hold the table of the project that they are made for. -/
def tableReaders (tables : String → FactTable) : Readers String String FactTable Unit where
  key project := project
  create project _ := (tables project, ())
  read table name _ := (table.find? name, table, ())
  release table _ := (table, ())

theorem answerPerProject_tableReaders (tables : String → FactTable) :
    (tableReaders tables).AnswerPerProject (fun key table => table = tables key)
      fun key => (tables key).find? where
  create _ _ := rfl
  keeps _ _ _ _ fit := fit
  answers _ _ _ _ fit := by rw [← fit]; rfl

variable [DecidableEq κ] {readers : Readers π κ ρ ω} {fits : κ → ρ → Prop} {facts : κ → Facts}
  {state state' : State π κ ρ ω} {project : π} {name : TypeName}

/-- All that is held for a project is so by its facts, and its reader answers from them. -/
structure State.Served (readers : Readers π κ ρ ω) (fits : κ → ρ → Prop) (facts : κ → Facts)
    (state : State π κ ρ ω) : Prop extends State.Labelled readers state where
  /-- The reader in use fits the project. -/
  fit : ∀ project written reader, state.held readers project = some (written, reader) →
    fits (readers.key project) reader
  /-- The cached facts are facts of the project. -/
  coherent : ∀ project, Grows (state.cached readers project) (facts (readers.key project))

namespace State

theorem Served.start (world : ω) : (State.start world).Served readers fits facts where
  toLabelled := .start world
  fit _ _ _ inUse := by simp [held, context?, State.start] at inUse
  coherent _ _ _ known := by simp [cached, context?, State.start] at known

/-- However a reader is come by, it fits the project. -/
theorem Served.fit_of_takes (h : state.Served readers fits facts)
    (per : readers.AnswerPerProject fits facts) {made : List (Event π)} {written : π} {reader : ρ}
    {world : ω} (takes : Takes readers state project made written reader world) :
    fits (readers.key project) reader := by
  cases takes with
  | held inUse => exact h.fit project written reader inUse
  | made => exact per.create project state.world

/-- A look that may read gives what the facts of the project say. -/
theorem Served.lookFull_fst (h : state.Served readers fits facts)
    (per : readers.AnswerPerProject fits facts) (project : π) (name : TypeName) :
    (state.lookFull readers project name).1 = facts (readers.key project) name := by
  cases known : state.cached readers project name with
  | some fact =>
    rw [lookFull_of_cached known, lookCached_fst, known, h.coherent project name fact known]
  | none =>
    obtain ⟨made, written, reader, world, takes⟩ := exists_takes readers state project
    rcases read : readers.read reader name world with ⟨answer, reader', world'⟩
    rw [takes.lookFull known read, ← per.answers _ reader name world (h.fit_of_takes per takes),
      read]

/-- A reader is made for the project that it is used for, and goes on to fit it. -/
theorem Served.fit_of_handles (h : state.Served readers fits facts)
    (per : readers.AnswerPerProject fits facts) (handles : Handles readers project state state') :
    ∀ other written reader, state'.held readers other = some (written, reader) →
      fits (readers.key other) reader := by
  refine handles.all_held (p := fun key _ reader => fits key reader) ?_ ?_ h.fit
  · intro project name world world'
    exact per.keeps _ _ name world' (per.create project world)
  · exact fun key _ reader name world fit => per.keeps key reader name world fit

theorem Served.coherent_lookFull (h : state.Served readers fits facts)
    (per : readers.AnswerPerProject fits facts) (project other : π) (name : TypeName) :
    Grows ((state.lookFull readers project name).2.cached readers other)
      (facts (readers.key other)) := by
  intro type fact given
  cases known : state.cached readers project name with
  | some _ =>
    rw [lookFull_of_cached known, cached_lookCached] at given
    exact h.coherent other type fact given
  | none =>
    rw [cached_lookFull_of_not_cached known] at given
    split at given
    case isTrue here =>
      obtain ⟨same, rfl⟩ := here
      rw [same, ← given, h.lookFull_fst per]
    case isFalse => exact h.coherent other type fact given

end State

open State

theorem preserves_served (per : readers.AnswerPerProject fits facts) :
    Preserves readers (fun _ => True) (State.Served readers fits facts) where
  look pass project name state h := by
    refine ⟨preserves_labelled.look pass project name state h.toLabelled,
      h.fit_of_handles per (handles_look readers state project pass name), fun other => ?_⟩
    cases pass with
    | cachedOnly =>
      rw [look, cached_lookCached]
      exact h.coherent other
    | full => exact h.coherent_lookFull per project other name
  cleanup state project h := by
    refine ⟨preserves_labelled.cleanup state project h.toLabelled,
      h.fit_of_handles per (handles_cleanup readers state project), fun other => ?_⟩
    rw [cached_cleanup]
    exact h.coherent other
  clear state project permitted h := by
    refine ⟨preserves_labelled.clear state project permitted h.toLabelled,
      h.fit_of_handles per (h.handles_clear project), fun other name fact known => ?_⟩
    rw [h.cached_clear] at known
    split at known
    · simp at known
    · exact h.coherent other name fact known
  drift _ _ h := ⟨⟨h.congr rfl, h.label⟩, h.fit, h.coherent⟩

theorem mirrors_served (per : readers.AnswerPerProject fits facts) (project : π) :
    Mirrors (look readers .full project) (State.Served readers fits facts)
      (facts (readers.key project)) where
  keeps := (preserves_served per).look .full project
  mirrors name _ h := h.lookFull_fst per project name

/-! ### Answers exist -/

/-- A question is answered if looks that may read lead from its type to finitely many names. -/
theorem exists_answer_of_bounded {inv : State π κ ρ ω → Prop} {classes names : Finset TypeName}
    (keeps : Keeps (look readers .cachedOnly project) inv)
    (bounded : Bounded (look readers .full project) inv classes names) (valid : inv state)
    (question : Question) (member : .ofString question.type ∈ classes) :
    ∃ answer after, state.answer readers project question = some (answer, after) := by
  cases question with
  | superclass type => exact ⟨_, _, rfl⟩
  | interfaces type => exact ⟨_, _, rfl⟩
  | extendsClass type target =>
    have member : .ofString type ∈ classes := member
    obtain ⟨holds, after, climbed⟩ := bounded.exists_climb (.ofString target) valid member
    exact ⟨.flag holds, after, by simp [State.answer, State.extendsClass, climbed]⟩
  | implementsInterface type target =>
    obtain ⟨verdict, state₁, cachedPass⟩ :=
      exists_cachedPass readers state project (.ofString type) (.ofString target)
    by_cases undecided : verdict = .inconclusive
    · subst undecided
      obtain ⟨met, course⟩ := SearchesClasses.of_eq cachedPass
      have member : .ofString type ∈ classes := member
      obtain ⟨verdict, after, fullPass⟩ := bounded.exists_pass .full (.ofString target)
        (keeps.of_searchesClasses valid course) member
      have searched := implementsInterface_of_inconclusive cachedPass fullPass
      exact ⟨.flag (verdict == .found), after, by simp [State.answer, searched]⟩
    · have searched := implementsInterface_of_decided cachedPass undecided
      exact ⟨.flag (verdict == .found), state₁, by simp [State.answer, searched]⟩

/-- In particular if they stay within finitely many names wherever they start. -/
theorem exists_answer_of_confined {inv : State π κ ρ ω → Prop}
    (keeps : Keeps (look readers .cachedOnly project) inv)
    (confined : ∀ type, ∃ names, type ∈ names ∧ Confined (look readers .full project) inv names)
    (valid : inv state) (question : Question) :
    ∃ answer after, state.answer readers project question = some (answer, after) := by
  obtain ⟨names, member, within⟩ := confined (.ofString question.type)
  exact exists_answer_of_bounded keeps within.bounded valid question member

variable {tables : κ → FactTable}

/-- Over tables every question is answered. -/
theorem State.Served.exists_answer
    (per : readers.AnswerPerProject fits fun key => (tables key).find?)
    (h : state.Served readers fits fun key => (tables key).find?) (project : π)
    (question : Question) :
    ∃ answer after, state.answer readers project question = some (answer, after) := by
  refine exists_answer_of_confined ((preserves_served per).look .cachedOnly project) ?_ h question
  intro type
  have mirrors : Mirrors (look readers .full project) _
      fun name => (tables (readers.key project)).entries.lookup name := mirrors_served per project
  exact mirrors.exists_names type

/-- Over tables every request is done. -/
theorem State.Served.exists_perform
    (per : readers.AnswerPerProject fits fun key => (tables key).find?)
    (h : state.Served readers fits fun key => (tables key).find?) (request : Request π) :
    ∃ answer? after, state.perform readers request = some (answer?, after) := by
  cases request with
  | ask project question cleanup =>
    obtain ⟨answer, after, answered⟩ := h.exists_answer per project question
    have asked : state.ask readers project question cleanup =
        some (answer, after.finish readers project cleanup) := State.ask_of_answer answered
    exact ⟨some answer, _, by rw [State.perform, asked]; rfl⟩
  | cleanup project => exact ⟨none, _, rfl⟩
  | clear project => exact ⟨none, _, rfl⟩
  | clearAll => exact ⟨none, _, rfl⟩

/-- Over tables every run comes to its end. -/
theorem State.Served.exists_run
    (per : readers.AnswerPerProject fits fun key => (tables key).find?)
    (h : state.Served readers fits fun key => (tables key).find?) (requests : List (Request π)) :
    ∃ answers after, state.run readers requests = some (answers, after) := by
  induction requests generalizing state with
  | nil => exact ⟨[], state, rfl⟩
  | cons request rest ih =>
    obtain ⟨answer?, state₁, performed⟩ := h.exists_perform per request
    have served := (preserves_served per).upholds.perform h trivial performed
    obtain ⟨answers, after, ran⟩ := ih served
    exact ⟨answer? :: answers, after, by simp [State.run, performed, ran]⟩

end TypeLineage.Engine
