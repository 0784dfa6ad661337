import TypeLineage.Proofs.Engine.Answers
import TypeLineage.Proofs.Engine.Handling
import TypeLineage.Proofs.Engine.Memory

/-!
# The life of readers

The readers of a project come one after the other. Each is made to be asked at once, is asked again
as often as need be, and is released before the next one is made; only the last one may not be
released yet, and just then the project has a reader in use. Over readers that keep a ledger it is
read off there how many of them are in use, and that none is asked after its release.
-/

namespace TypeLineage.Engine

open State FactTable

variable {π κ ρ ω : Type}

/-- The calls to one reader that has not been released: it is made, asked at once, and asked again.
-/
inductive Span (written : π) : List (Event π) → Prop where
  /-- The reader is made and asked. -/
  | make (name : TypeName) (answer : Option Fact) :
      Span written [.create written, .read written name answer]
  /-- It is asked again. -/
  | ask {calls : List (Event π)} (h : Span written calls) (name : TypeName)
      (answer : Option Fact) : Span written (calls ++ [.read written name answer])

/-- The calls to the readers of a project: one after the other is made, asked and released, and the
last one may be in use. -/
inductive Lifecycle : Option π → List (Event π) → Prop where
  /-- No reader has been made. -/
  | nothing : Lifecycle none []
  /-- One more reader is in use. -/
  | inUse {past calls : List (Event π)} {written : π} (h : Lifecycle none past)
      (span : Span written calls) : Lifecycle (some written) (past ++ calls)
  /-- One more reader has been released. -/
  | released {past calls : List (Event π)} {written : π} (h : Lifecycle none past)
      (span : Span written calls) (cause : Release) :
      Lifecycle none (past ++ (calls ++ [.release written cause]))

theorem Span.exists_last {written : π} {calls : List (Event π)} (h : Span written calls) :
    ∃ before name answer, calls = before ++ [.read written name answer] := by
  cases h with
  | make name answer => exact ⟨[.create written], name, answer, rfl⟩
  | ask h name answer => exact ⟨_, name, answer, rfl⟩

namespace Lifecycle

variable {calls : List (Event π)} {written : π}

theorem make (h : Lifecycle none calls) (project : π) (name : TypeName) (answer : Option Fact) :
    Lifecycle (some project) (calls ++ [.create project, .read project name answer]) :=
  .inUse h (.make name answer)

theorem ask (h : Lifecycle (some written) calls) (name : TypeName) (answer : Option Fact) :
    Lifecycle (some written) (calls ++ [.read written name answer]) := by
  cases h with
  | inUse past span =>
    rw [List.append_assoc]
    exact .inUse past (span.ask name answer)

theorem release (h : Lifecycle (some written) calls) (cause : Release) :
    Lifecycle none (calls ++ [.release written cause]) := by
  cases h with
  | inUse past span =>
    rw [List.append_assoc]
    exact .released past span cause

/-- Whether a reader is in use can be told from the last call. -/
theorem not_inUse (h : Lifecycle none calls) : ¬ Lifecycle (some written) calls := by
  rintro (_ | ⟨past, span⟩)
  obtain ⟨before, name, answer, rfl⟩ := span.exists_last
  generalize same : _ ++ (before ++ [_]) = calls at h
  have last := congrArg List.getLast? same
  cases h with
  | nothing => simp at last
  | released => simp at last

end Lifecycle

/-! ### Readers of a project -/

variable [DecidableEq κ] {readers : Readers π κ ρ ω} {state state' : State π κ ρ ω} {project : π}

/-- Those of the events that are calls to readers of a project. -/
def callsFor (readers : Readers π κ ρ ω) (project : π) (events : List (Event π)) :
    List (Event π) :=
  eventsOf readers project (events.filter Event.isCall)

/-- The calls of an operation on one project are no calls for another. -/
theorem State.Leaves.lifecycle {reader? : Option (π × ρ)} {world : ω} {calls : List (Event π)}
    (leaves : Leaves readers project state state' reader? world calls)
    (own : ∀ call ∈ calls, readers.key call.project = readers.key project)
    (valid : ∀ other, Lifecycle (state.label readers other) (callsFor readers other state.trace))
    (next : Lifecycle (reader?.map Prod.fst) (callsFor readers project state.trace ++ calls))
    (other : π) : Lifecycle (state'.label readers other) (callsFor readers other state'.trace) := by
  rw [label, leaves.held, callsFor, leaves.calls, eventsOf_append, eventsOf_of_own own]
  by_cases same : readers.key other = readers.key project
  · have alike : eventsOf readers other = eventsOf readers project := by
      funext events
      rw [eventsOf, eventsOf, same]
    rwa [if_pos same, if_pos same, alike]
  · rw [if_neg same, if_neg same, List.append_nil]
    exact valid other

/-- The calls for every project go on as they should, whatever an operation does with readers. -/
theorem upholds_lifecycle (readers : Readers π κ ρ ω) :
    Upholds readers (fun _ => True) fun state => state.Labelled readers ∧
      ∀ project,
        Lifecycle (state.label readers project) (callsFor readers project state.trace) := by
  refine upholds_of_handles fun project state state' labelled handles valid => ?_
  have here := valid project
  cases handles with
  | idle leaves =>
    exact leaves.lifecycle (by simp) valid (by simpa [label] using here)
  | @make _ _ _ _ name answer unused _ _ leaves =>
    rw [label, unused] at here
    exact leaves.lifecycle (by simp [Event.project]) valid (here.make project name answer)
  | @ask written _ _ _ name answer used _ leaves =>
    rw [label, used] at here
    have own := labelled.label project written _ used
    exact leaves.lifecycle (by simp [Event.project, own]) valid (here.ask name answer)
  | @release written _ _ _ cause used _ leaves =>
    rw [label, used] at here
    have own := labelled.label project written _ used
    exact leaves.lifecycle (by simp [Event.project, own]) valid (here.release cause)

/-- After any run, the calls for a project are those of readers one after the other, and the project
has a reader in use exactly if the last one has not been released. -/
theorem lifecycle_of_run {world : ω} {requests : List (Request π)} {answers : List (Option Answer)}
    (ran : (State.start world).run readers requests = some (answers, state)) (project : π) :
    (Lifecycle none (callsFor readers project state.trace) ∨
        ∃ written, Lifecycle (some written) (callsFor readers project state.trace)) ∧
      ((state.stats readers project).any Stats.readerActive = true ↔
        ∃ written, Lifecycle (some written) (callsFor readers project state.trace)) := by
  obtain ⟨-, valid⟩ :=
    (upholds_lifecycle readers).run ⟨.start world, fun _ => .nothing⟩ (fun _ _ => trivial) ran
  have here := valid project
  rw [any_stats]
  rw [label] at here
  cases used : state.held readers project with
  | none =>
    rw [used] at here
    refine ⟨.inl here, by simp, ?_⟩
    rintro ⟨written, other⟩
    exact absurd other here.not_inUse
  | some reader =>
    rw [used] at here
    exact ⟨.inr ⟨reader.1, here⟩, fun _ => ⟨reader.1, here⟩, fun _ => rfl⟩

/-! ### The ledger of a table -/

/-- The ledger says that no reader has been asked after its release, and how many are in use; those
in use have not been released. -/
structure State.Booked (table : FactTable) (state : State String String Reader Ledger) : Prop where
  /-- The readers in use have not been released. -/
  fresh : ∀ project written reader,
    state.held table.readers project = some (written, reader) → reader.released = false
  /-- Those that have been made have been released or are in use. -/
  created : state.world.created = state.world.released + state.inUse
  /-- No reader has been asked after its release. -/
  prompt : state.world.readsAfterRelease = 0

/-- The ledger is right, whatever an operation does with readers. -/
theorem upholds_booked (table : FactTable) :
    Upholds table.readers (fun _ => True) fun state => state.Labelled table.readers ∧
      state.Booked table := by
  refine upholds_of_handles fun project state state' _ handles booked => ?_
  -- Asking a reader of a table does not change it.
  have fresh := handles.all_held (p := fun _ _ reader => reader.released = false)
    (fun _ _ _ _ => rfl) (fun _ _ _ _ _ kept => kept) booked.fresh
  cases handles with
  | idle leaves =>
    have count := Nat.add_right_cancel leaves.inUse
    refine ⟨fresh, ?_, ?_⟩
    · rw [leaves.world, count, booked.created]
    · rw [leaves.world, booked.prompt]
  | make unused created read leaves =>
    cases created
    cases read
    have count := leaves.inUse
    have before := booked.created
    rw [unused] at count
    refine ⟨fresh, ?_, ?_⟩
    · rw [leaves.world]
      simp only [Option.isSome_none, Option.isSome_some, Bool.toNat_false, Bool.toNat_true] at count
      simp only
      omega
    · rw [leaves.world]
      simpa using booked.prompt
  | ask used read leaves =>
    cases read
    have count := leaves.inUse
    have before := booked.fresh project _ _ used
    rw [used] at count
    refine ⟨fresh, ?_, ?_⟩
    · rw [leaves.world, Nat.add_right_cancel count, booked.created]
    · rw [leaves.world]
      simpa [before] using booked.prompt
  | release used released leaves =>
    have count := leaves.inUse
    have before := booked.created
    have unreleased := booked.fresh project _ _ used
    simp only [FactTable.readers, releaseReader, unreleased] at released
    cases released
    rw [used] at count
    refine ⟨fresh, ?_, ?_⟩
    · rw [leaves.world]
      simp only [Option.isSome_none, Option.isSome_some, Bool.toNat_false, Bool.toNat_true] at count
      simp only
      omega
    · rw [leaves.world, booked.prompt]

/-- After any run the ledger is right, and when all projects have been forgotten then, all readers
have been released. -/
theorem exists_run_booked (table : FactTable) (requests : List (Request String)) :
    ∃ answers state,
      (State.start {}).run table.readers requests = some (answers, state) ∧
      state.world.readsAfterRelease = 0 ∧
      state.world.created = state.world.released +
        state.knownProjects.countP (fun project =>
          (state.stats table.readers project).any Stats.readerActive) ∧
      (state.clearAll table.readers).world.released =
        (state.clearAll table.readers).world.created ∧
      (state.clearAll table.readers).knownProjects = [] := by
  have upholds := upholds_booked table
  have start : (State.start ({} : Ledger)).Booked table :=
    ⟨by simp [State.held, context?, State.start], rfl, rfl⟩
  obtain ⟨answers, state, ran⟩ :=
    (Served.start {}).exists_run (answerFrom_readers table).perProject requests
  have valid := upholds.run ⟨.start {}, start⟩ (fun _ _ => trivial) ran
  have cleared := upholds.clearAll trivial valid
  obtain ⟨labelled, booked⟩ := valid
  have nothing := labelled.contexts_clearAll
  refine ⟨answers, state, ran, booked.prompt, ?_, ?_, ?_⟩
  · rw [booked.created, labelled.inUse_eq]
  · rw [cleared.2.created, inUse, nothing]
    rfl
  · rw [knownProjects, nothing]
    rfl

end TypeLineage.Engine
