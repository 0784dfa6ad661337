import TypeLineage.Proofs.Engine.Answers
import TypeLineage.Proofs.Engine.Coupling
import TypeLineage.Proofs.Engine.Memory
import Mathlib.Data.List.ReduceOption

/-!
# Releasing readers makes no difference

A reader that has been released is made anew when it is needed, and answers from the same facts. So
it cannot be told from the answers when readers are released: two runs that differ only in that give
the same answers, read the same types in the same order, and remember the same. Engines are compared
here that agree on all but the readers in use.
-/

namespace TypeLineage.Engine

open Hierarchy State

variable {π κ ρ ω : Type}

/-- A request without any wish that a reader be released. -/
def Request.uncleaned : Request π → Option (Request π)
  | .ask project question _ => some (.ask project question false)
  | .cleanup _ => none
  | .clear project => some (.clear project)
  | .clearAll => some .clearAll

/-- What an event is apart from readers being made and released: which project is asked for which
type and answers what, or is forgotten with how many facts. -/
def Event.substance? (readers : Readers π κ ρ ω) : Event π → Option (Event κ)
  | .create _ => none
  | .read written name answer => some (.read (readers.key written) name answer)
  | .release _ _ => none
  | .forget project facts => some (.forget (readers.key project) facts)

/-- What there is to some events apart from readers being made and released. -/
def substance (readers : Readers π κ ρ ω) (events : List (Event π)) : List (Event κ) :=
  events.filterMap (Event.substance? readers)

/-- What can be asked about a project, as if no reader were in use. -/
def Stats.atRest (stats : Stats) : Stats :=
  { stats with readerActive := false }

@[simp] theorem substance_append (readers : Readers π κ ρ ω) (events more : List (Event π)) :
    substance readers (events ++ more) = substance readers events ++ substance readers more :=
  List.filterMap_append ..

variable {readers : Readers π κ ρ ω} {project : π}

/-- What happens when a look reads comes to one question, whether a reader is made for it or not. -/
theorem substance_fetch {label? : Option π}
    (own : ∀ written ∈ label?, readers.key written = readers.key project) (name : TypeName)
    (answer : Option Fact) :
    substance readers (fetch label? project name answer) =
      [.read (readers.key project) name answer] := by
  cases label? with
  | none => rfl
  | some written =>
    have same := own written rfl
    simp [fetch, substance, Event.substance?, same]

/-- What happens when a project is forgotten comes to just that. -/
theorem substance_farewell (entry : π × Cache) (label? : Option π) :
    substance readers (farewell entry label?) =
      [.forget (readers.key entry.1) entry.2.size] := by
  cases label? <;> rfl

variable [DecidableEq κ] {fits : κ → ρ → Prop} {facts : κ → Facts} {tables : κ → FactTable}
  {state state' twin third : State π κ ρ ω} {requests requests' : List (Request π)}

theorem State.Labelled.key_label (h : state.Labelled readers) :
    ∀ written ∈ state.label readers project, readers.key written = readers.key project := by
  intro written member
  obtain ⟨⟨_, reader⟩, inUse, rfl⟩ := Option.map_eq_some_iff.mp member
  exact h.label project _ reader inUse

@[simp] theorem substance_trace_cleanup :
    substance readers (state.cleanup readers project).trace = substance readers state.trace := by
  rw [trace_cleanup_eq, substance_append]
  cases state.label readers project <;> simp [substance, Event.substance?]

theorem substance_trace_clear :
    substance readers (state.clear readers project).trace =
      substance readers state.trace ++ ((state.memory readers project).toList.map fun entry =>
        .forget (readers.key entry.1) entry.2.size) := by
  rw [trace_clear, substance_append]
  cases state.memory readers project with
  | none => rfl
  | some entry => simp [substance_farewell]

/-! ### Engines that differ in the readers in use -/

/-- Both engines remember the same, and have done the same apart from making and releasing readers.
-/
structure State.Kin (readers : Readers π κ ρ ω) (fits : κ → ρ → Prop) (facts : κ → Facts)
    (state twin : State π κ ρ ω) : Prop where
  /-- The one holds what is so by the facts. -/
  served : state.Served readers fits facts
  /-- So does the other. -/
  served' : twin.Served readers fits facts
  /-- What they remember is the same. -/
  memories : state.memories = twin.memories
  /-- What they have done is the same. -/
  substance : substance readers state.trace = substance readers twin.trace

namespace State.Kin

theorem symm (h : Kin readers fits facts state twin) : Kin readers fits facts twin state :=
  ⟨h.served', h.served, h.memories.symm, h.substance.symm⟩

theorem trans (h : Kin readers fits facts state twin) (h' : Kin readers fits facts twin third) :
    Kin readers fits facts state third :=
  ⟨h.served, h'.served', h.memories.trans h'.memories, h.substance.trans h'.substance⟩

theorem memory (h : Kin readers fits facts state twin) (project : π) :
    state.memory readers project = twin.memory readers project := by
  rw [memory_eq_lookup, memory_eq_lookup, h.memories]

theorem cached (h : Kin readers fits facts state twin) (project : π) :
    state.cached readers project = twin.cached readers project := by
  funext name
  rw [cached_eq_memory, cached_eq_memory, h.memory]

theorem knownProjects (h : Kin readers fits facts state twin) :
    state.knownProjects = twin.knownProjects := by
  rw [knownProjects_eq_memories, knownProjects_eq_memories, h.memories]

/-- What can be asked about a project is the same, but for whether a reader is in use. -/
theorem stats (h : Kin readers fits facts state twin) (project : π) :
    (state.stats readers project).map Stats.atRest =
      (twin.stats readers project).map Stats.atRest := by
  rw [stats_eq_memory, stats_eq_memory, h.memory, Option.map_map, Option.map_map]
  rfl

theorem lookCached (per : readers.AnswerPerProject fits facts)
    (h : Kin readers fits facts state twin) (project : π) (name : TypeName) :
    Kin readers fits facts (state.lookCached readers project name).2
      (twin.lookCached readers project name).2 := by
  have keeps := (preserves_served per).look .cachedOnly project name
  refine ⟨keeps state h.served, keeps twin h.served', ?_, ?_⟩
  · rw [memories_lookCached, memories_lookCached, h.memory, h.memories]
  · rw [trace_lookCached, trace_lookCached, h.substance]

theorem lookFull (per : readers.AnswerPerProject fits facts)
    (h : Kin readers fits facts state twin) {name : TypeName}
    (unknown : state.cached readers project name = none) :
    Kin readers fits facts (state.lookFull readers project name).2
      (twin.lookFull readers project name).2 := by
  have keeps := (preserves_served per).look .full project name
  obtain ⟨memories, -, trace⟩ := h.served.lookFull_own per unknown
  obtain ⟨memories', -, trace'⟩ := h.served'.lookFull_own per (h.cached project ▸ unknown)
  refine ⟨keeps state h.served, keeps twin h.served', ?_, ?_⟩
  · rw [memories, memories', h.memory, h.memories]
  · rw [trace, trace', substance_append, substance_append, substance_fetch h.served.key_label,
      substance_fetch h.served'.key_label, h.substance]

theorem look (per : readers.AnswerPerProject fits facts) (pass : Pass) (project : π) :
    Simulates (Kin readers fits facts) (look readers pass project) (look readers pass project) := by
  refine simulates_look (fun _ _ h => h.cached project)
    (fun name _ _ h => h.lookCached per project name) ?_ pass
  intro name state twin h unknown
  exact ⟨by rw [h.served.lookFull_fst per, h.served'.lookFull_fst per], h.lookFull per unknown⟩

/-- It makes no difference that one of the two releases a reader. -/
theorem cleanup_left (per : readers.AnswerPerProject fits facts)
    (h : Kin readers fits facts state twin) (project : π) :
    Kin readers fits facts (state.cleanup readers project) twin :=
  ⟨(preserves_served per).cleanup state project h.served, h.served',
    by rw [memories_cleanup, h.memories], by rw [substance_trace_cleanup, h.substance]⟩

theorem finish_left (per : readers.AnswerPerProject fits facts)
    (h : Kin readers fits facts state twin) (project : π) (cleanup : Bool) :
    Kin readers fits facts (state.finish readers project cleanup) twin := by
  unfold State.finish
  split
  · exact h.cleanup_left per project
  · exact h

theorem clear (per : readers.AnswerPerProject fits facts) (h : Kin readers fits facts state twin)
    (project : π) :
    Kin readers fits facts (state.clear readers project) (twin.clear readers project) := by
  have keeps := fun state => (preserves_served per).clear state project (.inl trivial)
  refine ⟨keeps state h.served, keeps twin h.served', ?_, ?_⟩
  · rw [memories_clear, memories_clear, h.memories]
  · rw [substance_trace_clear, substance_trace_clear, h.memory, h.substance]

end State.Kin

theorem couples_kin (per : readers.AnswerPerProject fits facts) :
    Couples readers readers (fun _ => True) (State.Kin readers fits facts) where
  look pass project _ := State.Kin.look per pass project
  cleanup _ _ project _ h := ((h.cleanup_left per project).symm.cleanup_left per project).symm
  clear _ _ project _ h := h.clear per project

/-- A question has the same answer from both, whether a reader is released afterwards or not. -/
theorem State.Kin.ask (per : readers.AnswerPerProject fits facts)
    (h : Kin readers fits facts state twin) {question : Question} {answer : Answer} {cleanup : Bool}
    (asked : state.ask readers project question cleanup = some (answer, state')) (cleanup' : Bool) :
    ∃ twin', twin.ask readers project question cleanup' = some (answer, twin') ∧
      Kin readers fits facts state' twin' := by
  obtain ⟨⟨answer₁, state₁⟩, answered, asked⟩ := Option.bind_eq_some_iff.mp asked
  cases asked
  have looks := fun pass => (couples_kin per).look pass project trivial
  obtain ⟨twin₁, answered', kin⟩ := exists_answer_of_simulates looks h answered
  have left := kin.finish_left per project cleanup
  exact ⟨_, ask_of_answer answered', (left.symm.finish_left per project cleanup').symm⟩

/-! ### Runs -/

/-- A run and the run without any wish that a reader be released lead to the same. -/
theorem State.Kin.run (per : readers.AnswerPerProject fits facts)
    (h : Kin readers fits facts state twin) {answers : List (Option Answer)}
    (ran : state.run readers requests = some (answers, state')) :
    ∃ answers' twin',
      twin.run readers (requests.filterMap Request.uncleaned) = some (answers', twin') ∧
      answers.reduceOption = answers'.reduceOption ∧ Kin readers fits facts state' twin' := by
  induction requests generalizing state twin answers with
  | nil =>
    cases ran
    exact ⟨[], twin, rfl, rfl, h⟩
  | cons request rest ih =>
    obtain ⟨⟨answer?, state₁⟩, performed, ran⟩ := Option.bind_eq_some_iff.mp ran
    obtain ⟨⟨answers₁, state₂⟩, ran₁, ran⟩ := Option.bind_eq_some_iff.mp ran
    cases ran
    cases request with
    | ask project question cleanup =>
      obtain ⟨⟨answer, state₁⟩, asked, performed⟩ := Option.bind_eq_some_iff.mp performed
      cases performed
      obtain ⟨twin₁, asked', kin⟩ := h.ask per asked false
      obtain ⟨answers', twin', ran', same, kin'⟩ := ih kin ran₁
      refine ⟨some answer :: answers', twin', ?_, by simp [same], kin'⟩
      simp [Request.uncleaned, State.run, State.perform, asked', ran']
    | cleanup project =>
      cases performed
      obtain ⟨answers', twin', ran', same, kin'⟩ := ih (h.cleanup_left per project) ran₁
      exact ⟨answers', twin', ran', by simp [same], kin'⟩
    | clear project =>
      cases performed
      obtain ⟨answers', twin', ran', same, kin'⟩ := ih (h.clear per project) ran₁
      refine ⟨none :: answers', twin', ?_, by simp [same], kin'⟩
      simp [Request.uncleaned, State.run, State.perform, ran']
    | clearAll =>
      cases performed
      have clearedLeft : state.perform readers .clearAll = some (none, state.clearAll readers) :=
        rfl
      obtain ⟨twin₁, cleared, kin⟩ :=
        (couples_kin per).perform (fun _ _ kin => kin.knownProjects) h clearedLeft
      obtain ⟨answers', twin', ran', same, kin'⟩ := ih kin ran₁
      refine ⟨none :: answers', twin', ?_, by simp [same], kin'⟩
      simp [Request.uncleaned, State.run, cleared, ran']

/-- Runs that differ only in when readers are released lead to the same. -/
theorem exists_runs_of_uncleaned (per : readers.AnswerPerProject fits fun key => (tables key).find?)
    (world world' : ω)
    (same : requests.filterMap Request.uncleaned = requests'.filterMap Request.uncleaned) :
    ∃ answers state answers' twin,
      (State.start world).run readers requests = some (answers, state) ∧
      (State.start world').run readers requests' = some (answers', twin) ∧
      answers.reduceOption = answers'.reduceOption ∧
      state.Kin readers fits (fun key => (tables key).find?) twin := by
  obtain ⟨answers, state, ran⟩ := (Served.start world).exists_run per requests
  obtain ⟨answers', twin, ran'⟩ := (Served.start world').exists_run per requests'
  have start : Kin readers fits (fun key => (tables key).find?) (.start world) (.start world') :=
    ⟨.start world, .start world', rfl, rfl⟩
  obtain ⟨spared, third, runs, alike, kin⟩ := start.run per ran
  obtain ⟨spared', third', runs', alike', kin'⟩ := (start.symm.trans start).run per ran'
  rw [← same, runs] at runs'
  obtain ⟨rfl, rfl⟩ := Prod.mk.inj (Option.some.inj runs')
  exact ⟨answers, state, answers', twin, ran, ran', alike.trans alike'.symm, kin.trans kin'.symm⟩

/-- **Releasing readers makes no difference to answers.** Take two runs that differ only in the
wishes to release a reader, after an answer or by themselves: they give the same answers, all that
is done is the same but for readers being made and released, and what can be asked about any project
is the same, but for whether a reader is in use, as are the known projects. A question that is asked
next has the same answer from both, with the same types read in the same order, whether a reader is
released afterwards or not, and that leaves them alike once more. -/
theorem cleanup_makes_no_difference
    (per : readers.AnswerPerProject fits fun key => (tables key).find?) (world world' : ω)
    (same : requests.filterMap Request.uncleaned = requests'.filterMap Request.uncleaned) :
    ∃ answers state answers' twin,
      (State.start world).run readers requests = some (answers, state) ∧
      (State.start world').run readers requests' = some (answers', twin) ∧
      answers.reduceOption = answers'.reduceOption ∧
      substance readers state.trace = substance readers twin.trace ∧
      (∀ other, (state.stats readers other).map Stats.atRest =
        (twin.stats readers other).map Stats.atRest) ∧
      state.knownProjects = twin.knownProjects ∧
      ∀ project question cleanup cleanup', ∃ answer after after' events events',
        state.ask readers project question cleanup = some (answer, after) ∧
        twin.ask readers project question cleanup' = some (answer, after') ∧
        after.trace = state.trace ++ events ∧ after'.trace = twin.trace ++ events' ∧
        substance readers events = substance readers events' ∧
        (∀ other, (after.stats readers other).map Stats.atRest =
          (after'.stats readers other).map Stats.atRest) ∧
        after.knownProjects = after'.knownProjects := by
  obtain ⟨answers, state, answers', twin, ran, ran', alike, kin⟩ :=
    exists_runs_of_uncleaned per world world' same
  refine ⟨answers, state, answers', twin, ran, ran', alike, kin.substance, kin.stats,
    kin.knownProjects, ?_⟩
  intro project question cleanup cleanup'
  obtain ⟨answer, answered, given⟩ := kin.served.exists_answer per project question
  have asked : state.ask readers project question cleanup =
      some (answer, answered.finish readers project cleanup) := ask_of_answer given
  obtain ⟨after', asked', kin'⟩ := kin.ask per asked cleanup'
  obtain ⟨events, touches⟩ := kin.served.touches_ask asked
  obtain ⟨events', touches'⟩ := kin.served'.touches_ask asked'
  have same : substance readers events = substance readers events' := by
    have whole := kin'.substance
    rw [touches.trace, touches'.trace, substance_append, substance_append, kin.substance] at whole
    exact List.append_cancel_left whole
  exact ⟨answer, _, after', events, events', asked, asked', touches.trace, touches'.trace, same,
    kin'.stats, kin'.knownProjects⟩

/-- Whether the reader is released after the first question, and once more later, or never, makes no
difference to the second. -/
theorem superclass_despite_cleanup :
    ∃ answers state answers' twin,
      (State.start {}).run circles.readers
        [.ask "p" (.superclass "a.Low") true, .cleanup "q", .cleanup "p"] = some (answers, state) ∧
      (State.start {}).run circles.readers [.ask "p" (.superclass "a.Low") false] =
        some (answers', twin) ∧
      ∃ answer after after',
        state.ask circles.readers "p" (.superclass "a.High") false = some (answer, after) ∧
        twin.ask circles.readers "p" (.superclass "a.High") true = some (answer, after') ∧
        after.knownProjects = after'.knownProjects := by
  have same : List.filterMap Request.uncleaned
        [.ask "p" (.superclass "a.Low") true, .cleanup "q", .cleanup "p"] =
      List.filterMap Request.uncleaned [.ask "p" (.superclass "a.Low") false] := rfl
  obtain ⟨answers, state, answers', twin, ran, ran', -, -, -, -, alike⟩ :=
    cleanup_makes_no_difference (answerFrom_readers circles).perProject {} {} same
  obtain ⟨answer, after, after', -, -, asked, asked', -, -, -, -, known⟩ :=
    alike "p" (.superclass "a.High") false true
  exact ⟨answers, state, answers', twin, ran, ran', answer, after, after', asked, asked', known⟩

end TypeLineage.Engine
