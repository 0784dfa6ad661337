import TypeLineage.Engine.Run
import TypeLineage.Proofs.Engine.View

/-!
# Runs, step by step

A step of a run does one request, or the world changes meanwhile without the engine: files are
written and removed. What every operation of the engine keeps is an invariant of runs; only
forgetting a project may be exempted from it, for runs in which it is not requested.
-/

namespace TypeLineage.Engine

open Relation

variable {π κ ρ ω : Type} [DecidableEq κ]

/-- The request forgets the project with the key. -/
def Request.Clears (readers : Readers π κ ρ ω) (key : κ) : Request π → Prop
  | .ask _ _ _ => False
  | .cleanup _ => False
  | .clear project => readers.key project = key
  | .clearAll => True

/-- One step of a run in which only certain requests occur. -/
inductive Step (readers : Readers π κ ρ ω) (permits : Request π → Prop) :
    State π κ ρ ω → State π κ ρ ω → Prop where
  /-- A request is done. -/
  | perform {state state' : State π κ ρ ω} {request : Request π} {answer? : Option Answer}
      (permitted : permits request)
      (performed : state.perform readers request = some (answer?, state')) :
      Step readers permits state state'
  /-- The world changes. -/
  | drift {state : State π κ ρ ω} (world : ω) : Step readers permits state { state with world }

/-- One look of a question, by either pass, at a type of some project. -/
inductive Looks (readers : Readers π κ ρ ω) : State π κ ρ ω → State π κ ρ ω → Prop where
  /-- A type is looked up. -/
  | look {state : State π κ ρ ω} (pass : Pass) (project : π) (name : TypeName) :
      Looks readers state (look readers pass project name state).2

/-- The engine has come from the one state to the other in a run in which only certain requests
occur, and may be in the midst of a question: some looks have been taken after the last step. -/
def Amid (readers : Readers π κ ρ ω) (permits : Request π → Prop) (state state' : State π κ ρ ω) :
    Prop :=
  ∃ between, ReflTransGen (Step readers permits) state between ∧
    ReflTransGen (Looks readers) between state'

/-- An engine that starts with nothing can come to this state. -/
def Reachable (readers : Readers π κ ρ ω) (state : State π κ ρ ω) : Prop :=
  ∃ world, ReflTransGen (Step readers fun _ => True) (.start world) state

variable {readers : Readers π κ ρ ω} {permits : Request π → Prop} {inv : State π κ ρ ω → Prop}
  {state state' : State π κ ρ ω} {project : π}

theorem State.answer_superclass (type : String) :
    state.answer readers project (.superclass type) =
      let looked := look readers .full project (.ofString type) state
      some (.name (looked.1.bind Fact.superclass), looked.2) :=
  rfl

theorem State.answer_interfaces (type : String) :
    state.answer readers project (.interfaces type) =
      let looked := look readers .full project (.ofString type) state
      some (.names (looked.1.map Fact.interfaces), looked.2) :=
  rfl

theorem State.ask_of_answer {question : Question} {answer : Answer} {cleanup : Bool}
    (answered : state.answer readers project question = some (answer, state')) :
    state.ask readers project question cleanup =
      some (answer, state'.finish readers project cleanup) := by
  rw [ask, answered]
  rfl

theorem State.cached_finish (other : π) (cleanup : Bool) :
    (state.finish readers project cleanup).cached readers other = state.cached readers other := by
  unfold finish
  split <;> simp

variable (readers state project) in
/-- All that is seen from outside when a question has been answered is the release of a reader. -/
theorem State.trace_finish (cleanup : Bool) :
    ∃ events, (state.finish readers project cleanup).trace = state.trace ++ events ∧
      ∀ event ∈ events, event.isFetch = false := by
  unfold finish
  split
  · obtain same | ⟨written, released⟩ := state.trace_cleanup readers project
    · exact ⟨[], by simp [same], by simp⟩
    · exact ⟨[.release written .cleanup], released, by simp [Event.isFetch]⟩
  · exact ⟨[], by simp, by simp⟩

/-- One more request after a run. -/
theorem State.run_concat {requests : List (Request π)} {answers : List (Option Answer)}
    {between : State π κ ρ ω} {request : Request π} {answer? : Option Answer}
    (ran : state.run readers requests = some (answers, between))
    (performed : between.perform readers request = some (answer?, state')) :
    state.run readers (requests ++ [request]) = some (answers ++ [answer?], state') := by
  induction requests generalizing state answers with
  | nil =>
    cases ran
    simp [run, performed]
  | cons first rest ih =>
    obtain ⟨⟨answer₁, state₁⟩, performed₁, ran⟩ := Option.bind_eq_some_iff.mp ran
    obtain ⟨⟨answers', state₂⟩, ran', ran⟩ := Option.bind_eq_some_iff.mp ran
    cases ran
    simp [run, performed₁, ih ran']

/-- What a run of requests comes to can be reached by steps. -/
theorem steps_of_run {requests : List (Request π)} {answers : List (Option Answer)}
    (h : state.run readers requests = some (answers, state')) :
    ReflTransGen (Step readers fun _ => True) state state' := by
  induction requests generalizing state answers with
  | nil =>
    cases h
    exact .refl
  | cons request rest ih =>
    obtain ⟨⟨answer?, state₁⟩, performed, h⟩ := Option.bind_eq_some_iff.mp h
    obtain ⟨⟨answers', state₂⟩, ran, h⟩ := Option.bind_eq_some_iff.mp h
    cases h
    exact .head (.perform trivial performed) (ih ran)

/-- What looks at a project keep, whether they may read or not, an answer about it keeps. -/
theorem keeps_of_answer (looks : ∀ pass, Keeps (look readers pass project) inv) (valid : inv state)
    {question : Question} {answer : Answer}
    (answered : state.answer readers project question = some (answer, state')) : inv state' := by
  cases question with
  | superclass type =>
    cases answered
    exact looks .full _ _ valid
  | interfaces type =>
    cases answered
    exact looks .full _ _ valid
  | extendsClass type target =>
    obtain ⟨⟨holds, state₁⟩, climbed, answered⟩ := Option.bind_eq_some_iff.mp answered
    cases answered
    exact (looks .full).of_climbs valid (.of_eq climbed)
  | implementsInterface type target =>
    obtain ⟨⟨holds, state₁⟩, searched, answered⟩ := Option.bind_eq_some_iff.mp answered
    cases answered
    obtain ⟨⟨verdict, state₁⟩, cachedPass, rest⟩ := Option.bind_eq_some_iff.mp searched
    obtain ⟨met₁, course⟩ := SearchesClasses.of_eq cachedPass
    have valid₁ := (looks .cachedOnly).of_searchesClasses valid course
    cases verdict with
    | found | absent =>
      cases rest
      exact valid₁
    | inconclusive =>
      obtain ⟨⟨verdict, state₂⟩, fullPass, rest⟩ := Option.bind_eq_some_iff.mp rest
      cases rest
      obtain ⟨met₂, course'⟩ := SearchesClasses.of_eq fullPass
      exact (looks .full).of_searchesClasses valid₁ course'

/-- What all operations keep that certain requests lead to. -/
structure Upholds (readers : Readers π κ ρ ω) (permits : Request π → Prop)
    (inv : State π κ ρ ω → Prop) : Prop where
  /-- Looking something up. -/
  look : ∀ pass project, Keeps (look readers pass project) inv
  /-- Releasing a reader. -/
  cleanup : ∀ state project, inv state → inv (state.cleanup readers project)
  /-- Forgetting a project, by itself or with all others. -/
  clear : ∀ state project, permits (.clear project) ∨ permits .clearAll → inv state →
    inv (state.clear readers project)

namespace Upholds

theorem finish (h : Upholds readers permits inv) (valid : inv state) (cleanup : Bool) :
    inv (state.finish readers project cleanup) := by
  unfold State.finish
  split
  · exact h.cleanup state project valid
  · exact valid

theorem ask (h : Upholds readers permits inv) (valid : inv state) {question : Question}
    {cleanup : Bool} {answer : Answer}
    (asked : state.ask readers project question cleanup = some (answer, state')) : inv state' := by
  obtain ⟨⟨answer₁, state₁⟩, answered, asked⟩ := Option.bind_eq_some_iff.mp asked
  cases asked
  exact h.finish (keeps_of_answer (fun pass => h.look pass project) valid answered) cleanup

theorem clearAll (h : Upholds readers permits inv) (permitted : permits .clearAll)
    (valid : inv state) : inv (state.clearAll readers) := by
  unfold State.clearAll
  -- The projects are listed beforehand, so the list does not change with the state.
  generalize state.knownProjects = projects
  induction projects generalizing state with
  | nil => exact valid
  | cons project rest ih => exact ih (h.clear state project (.inr permitted) valid)

/-- One request keeps the invariant. -/
theorem perform (h : Upholds readers permits inv) (valid : inv state) {request : Request π}
    (permitted : permits request) {answer? : Option Answer}
    (performed : state.perform readers request = some (answer?, state')) : inv state' := by
  cases request with
  | ask project question cleanup =>
    obtain ⟨⟨answer, state₁⟩, asked, performed⟩ := Option.bind_eq_some_iff.mp performed
    cases performed
    exact h.ask valid asked
  | cleanup project =>
    cases performed
    exact h.cleanup state project valid
  | clear project =>
    cases performed
    exact h.clear state project (.inl permitted) valid
  | clearAll =>
    cases performed
    exact h.clearAll permitted valid

/-- So do requests one after the other. -/
theorem run (h : Upholds readers permits inv) (valid : inv state) {requests : List (Request π)}
    (permitted : ∀ request ∈ requests, permits request) {answers : List (Option Answer)}
    (ran : state.run readers requests = some (answers, state')) : inv state' := by
  induction requests generalizing state answers with
  | nil =>
    cases ran
    exact valid
  | cons request rest ih =>
    obtain ⟨⟨answer?, state₁⟩, performed, ran⟩ := Option.bind_eq_some_iff.mp ran
    obtain ⟨⟨answers', state₂⟩, ran', ran⟩ := Option.bind_eq_some_iff.mp ran
    cases ran
    have valid₁ := h.perform valid (permitted request (.head _)) performed
    exact ih valid₁ (fun other member => permitted other (.tail _ member)) ran'

end Upholds

/-- What all operations keep that certain requests lead to, and all changes of the world. -/
structure Preserves (readers : Readers π κ ρ ω) (permits : Request π → Prop)
    (inv : State π κ ρ ω → Prop) : Prop where
  /-- Looking something up. -/
  look : ∀ pass project, Keeps (look readers pass project) inv
  /-- Releasing a reader. -/
  cleanup : ∀ state project, inv state → inv (state.cleanup readers project)
  /-- Forgetting a project, by itself or with all others. -/
  clear : ∀ state project, permits (.clear project) ∨ permits .clearAll → inv state →
    inv (state.clear readers project)
  /-- Changes of the world. -/
  drift : ∀ (state : State π κ ρ ω) world, inv state → inv { state with world }

namespace Preserves

theorem upholds (h : Preserves readers permits inv) : Upholds readers permits inv :=
  ⟨h.look, h.cleanup, h.clear⟩

/-- One step keeps the invariant. -/
theorem step (h : Preserves readers permits inv) (valid : inv state)
    (step : Step readers permits state state') : inv state' := by
  cases step with
  | perform permitted performed => exact h.upholds.perform valid permitted performed
  | drift world => exact h.drift state world valid

/-- So does a run. -/
theorem steps (h : Preserves readers permits inv) (valid : inv state)
    (steps : ReflTransGen (Step readers permits) state state') : inv state' := by
  induction steps with
  | refl => exact valid
  | tail _ last ih => exact h.step ih last

/-- The invariant also lasts in the midst of a question. -/
theorem amid (h : Preserves readers permits inv) (valid : inv state)
    (amid : Amid readers permits state state') : inv state' := by
  obtain ⟨between, steps, looks⟩ := amid
  induction looks with
  | refl => exact h.steps valid steps
  | tail _ last ih =>
    cases last with
    | look pass project name => exact h.look pass project name _ ih

/-- An invariant that the engine starts with holds in every state that it can come to. -/
theorem of_reachable (h : Preserves readers (fun _ => True) inv)
    (reachable : Reachable readers state) (start : ∀ world, inv (.start world)) : inv state := by
  obtain ⟨world, steps⟩ := reachable
  exact h.steps (start world) steps

end Preserves

end TypeLineage.Engine
