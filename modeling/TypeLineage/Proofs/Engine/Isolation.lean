import TypeLineage.Proofs.Engine.Answers
import TypeLineage.Proofs.Engine.Image
import TypeLineage.Proofs.Engine.Memory

/-!
# A project by itself

What becomes of a project is up to the requests that are addressed to it, and to those of them only
that come after it was last forgotten: a new engine that is given no other requests does the same
for the project. Two engines are compared here that agree on one project; they may differ in
everything else, and in their past.
-/

namespace TypeLineage.Engine

open Hierarchy State

variable {π κ ρ ω : Type}

instance [DecidableEq κ] (readers : Readers π κ ρ ω) (key : κ) :
    DecidablePred (Request.Clears readers key)
  | .ask _ _ _ => inferInstanceAs (Decidable False)
  | .cleanup _ => inferInstanceAs (Decidable False)
  | .clear project => inferInstanceAs (Decidable (readers.key project = key))
  | .clearAll => inferInstanceAs (Decidable True)

instance [DecidableEq κ] (readers : Readers π κ ρ ω) (key : κ) :
    DecidablePred (Request.AddressedTo readers key)
  | .ask project _ _ => inferInstanceAs (Decidable (readers.key project = key))
  | .cleanup project => inferInstanceAs (Decidable (readers.key project = key))
  | .clear project => inferInstanceAs (Decidable (readers.key project = key))
  | .clearAll => inferInstanceAs (Decidable False)

variable [DecidableEq κ]

/-- The requests that are addressed to a project and come after it was last forgotten. -/
def epoch (readers : Readers π κ ρ ω) (key : κ) (requests : List (Request π)) : List (Request π) :=
  requests.foldl
    (fun since request =>
      if request.Clears readers key then []
      else if request.AddressedTo readers key then since ++ [request]
      else since)
    []

/-- An engine that has done other things before. -/
def State.following (past : List (Event π)) (state : State π κ ρ ω) : State π κ ρ ω :=
  { state with trace := past ++ state.trace }

omit [DecidableEq κ] in
theorem State.image_id (past : List (Event π)) (state : State π κ ρ ω) :
    state.image id id past = state.following past := by
  have same : Prod.map id (Context.image id) = (id : κ × Context π ρ → κ × Context π ρ) := by
    funext ⟨key, context⟩
    simp [Context.image]
  simp [State.image, State.following, same]

variable {readers : Readers π κ ρ ω} {fits : κ → ρ → Prop} {facts : κ → Facts}
  {tables : κ → FactTable} {project other : π} {past past' events more : List (Event π)}
  {state state' twin twin' : State π κ ρ ω} {request : Request π} {requests : List (Request π)}

theorem epoch_concat (readers : Readers π κ ρ ω) (key : κ) (requests : List (Request π))
    (request : Request π) :
    epoch readers key (requests ++ [request]) =
      if request.Clears readers key then []
      else if request.AddressedTo readers key then epoch readers key requests ++ [request]
      else epoch readers key requests := by
  simp [epoch]

/-! ### Two engines that agree on a project -/

/-- Both engines remember the same of the project, and have done the same since the past. -/
structure State.Twins (readers : Readers π κ ρ ω) (fits : κ → ρ → Prop) (facts : κ → Facts)
    (project : π) (past past' : List (Event π)) (state twin : State π κ ρ ω) : Prop where
  /-- The one holds what is so by the facts. -/
  served : state.Served readers fits facts
  /-- So does the other. -/
  served' : twin.Served readers fits facts
  /-- What they remember is the same. -/
  memory : state.memory readers project = twin.memory readers project
  /-- So is the project as written for which the reader in use was made. -/
  label : state.label readers project = twin.label readers project
  /-- What they have done is the same. -/
  events : ∃ events, state.trace = past ++ events ∧ twin.trace = past' ++ events

namespace State.Twins

theorem rename (h : Twins readers fits facts project past past' state twin)
    (same : readers.key other = readers.key project) :
    Twins readers fits facts other past past' state twin where
  served := h.served
  served' := h.served'
  memory := by rw [memory_congr readers state same, memory_congr readers twin same, h.memory]
  label := by rw [label_congr readers state same, label_congr readers twin same, h.label]
  events := h.events

/-- From now on, what both have done until now is past. -/
theorem now (h : Twins readers fits facts project past past' state twin) :
    Twins readers fits facts project state.trace twin.trace state twin :=
  { h with events := ⟨[], by simp, by simp⟩ }

/-- Both do the same next. -/
theorem next (h : Twins readers fits facts project past past' state twin)
    (served : state'.Served readers fits facts) (served' : twin'.Served readers fits facts)
    (memory : state'.memory readers project = twin'.memory readers project)
    (label : state'.label readers project = twin'.label readers project)
    (trace : state'.trace = state.trace ++ more) (trace' : twin'.trace = twin.trace ++ more) :
    Twins readers fits facts project past past' state' twin' := by
  obtain ⟨events, traced, traced'⟩ := h.events
  exact ⟨served, served', memory, label, events ++ more, by rw [trace, traced, List.append_assoc],
    by rw [trace', traced', List.append_assoc]⟩

theorem stats (h : Twins readers fits facts project past past' state twin) :
    state.stats readers project = twin.stats readers project := by
  rw [stats_eq_memory, stats_eq_memory, h.memory, h.label]

theorem cached (h : Twins readers fits facts project past past' state twin) :
    state.cached readers project = twin.cached readers project := by
  funext name
  rw [cached_eq_memory, cached_eq_memory, h.memory]

theorem lookCached (per : readers.AnswerPerProject fits facts)
    (h : Twins readers fits facts project past past' state twin) (name : TypeName) :
    Twins readers fits facts project past past' (state.lookCached readers project name).2
      (twin.lookCached readers project name).2 := by
  have keeps := (preserves_served per).look .cachedOnly project name
  have silent : ∀ state : State π κ ρ ω,
      (state.lookCached readers project name).2.trace = state.trace ++ [] := by simp
  refine h.next (keeps state h.served) (keeps twin h.served') ?_ ?_ (silent state) (silent twin)
  · rw [memory_lookCached, memory_lookCached, h.memory]
  · rw [label_lookCached, label_lookCached, h.label]

theorem lookFull (per : readers.AnswerPerProject fits facts)
    (h : Twins readers fits facts project past past' state twin) {name : TypeName}
    (unknown : state.cached readers project name = none) :
    Twins readers fits facts project past past' (state.lookFull readers project name).2
      (twin.lookFull readers project name).2 := by
  have keeps := (preserves_served per).look .full project name
  obtain ⟨memories, label, traced⟩ := h.served.lookFull_own per unknown
  obtain ⟨memories', label', traced'⟩ := h.served'.lookFull_own per (h.cached ▸ unknown)
  refine h.next (keeps state h.served) (keeps twin h.served') ?_ ?_ traced (h.label ▸ traced')
  · rw [memory_of_memories memories, memory_of_memories memories', h.memory]
  · rw [label, label', h.label]

theorem look (per : readers.AnswerPerProject fits facts) (pass : Pass) :
    Simulates (Twins readers fits facts project past past') (look readers pass project)
      (look readers pass project) := by
  refine simulates_look (fun _ _ h => h.cached) (fun name _ _ h => h.lookCached per name) ?_ pass
  intro name state twin h unknown
  exact ⟨by rw [h.served.lookFull_fst per, h.served'.lookFull_fst per], h.lookFull per unknown⟩

theorem cleanup (per : readers.AnswerPerProject fits facts)
    (h : Twins readers fits facts project past past' state twin) :
    Twins readers fits facts project past past' (state.cleanup readers project)
      (twin.cleanup readers project) := by
  have keeps := (preserves_served per).cleanup
  refine h.next (keeps state project h.served) (keeps twin project h.served') ?_ ?_
    trace_cleanup_eq (h.label ▸ trace_cleanup_eq)
  · rw [memory_cleanup, memory_cleanup, h.memory]
  · rw [label_cleanup, label_cleanup, h.label]

theorem clear (per : readers.AnswerPerProject fits facts)
    (h : Twins readers fits facts project past past' state twin) :
    Twins readers fits facts project past past' (state.clear readers project)
      (twin.clear readers project) := by
  have keeps := fun state => (preserves_served per).clear state project (.inl trivial)
  refine h.next (keeps state h.served) (keeps twin h.served') ?_ ?_ trace_clear
    (h.memory ▸ h.label ▸ trace_clear)
  · rw [h.served.memory_clear, h.served'.memory_clear]
  · rw [h.served.label_clear, h.served'.label_clear]

end State.Twins

/-- Engines that agree on a project still do so after a request that is addressed to it. -/
theorem couples_twins (per : readers.AnswerPerProject fits facts) (project : π)
    (past past' : List (Event π)) :
    Couples readers readers (fun other => readers.key other = readers.key project)
      (State.Twins readers fits facts project past past') where
  look pass other same name state twin h := by
    obtain ⟨given, h'⟩ := Twins.look per pass name state twin (h.rename same)
    exact ⟨given, h'.rename same.symm⟩
  cleanup _ _ _ same h := ((h.rename same).cleanup per).rename same.symm
  clear _ _ _ same h := ((h.rename same).clear per).rename same.symm

/-! ### What is not addressed to the project -/

omit [DecidableEq κ] in
/-- A request that neither is addressed to a project nor forgets it is addressed to another. -/
theorem Request.exists_other {key : κ} (spared : ¬ request.Clears readers key)
    (elsewhere : ¬ request.AddressedTo readers key) :
    ∃ other, readers.key other ≠ key ∧ request.AddressedTo readers (readers.key other) := by
  cases request with
  | ask other | cleanup other | clear other => exact ⟨other, elsewhere, rfl⟩
  | clearAll => exact absurd trivial spared

/-- A project that has been forgotten is not remembered, alone or with all others. -/
theorem State.Labelled.forgotten (h : state.Labelled readers)
    (clears : request.Clears readers (readers.key project)) {answer? : Option Answer}
    (performed : state.perform readers request = some (answer?, state')) :
    state'.memory readers project = none ∧ state'.label readers project = none := by
  cases request with
  | ask | cleanup => exact absurd clears id
  | clear other =>
    cases performed
    rw [← memory_congr _ _ clears, ← label_congr _ _ clears]
    exact ⟨h.memory_clear other, h.label_clear other⟩
  | clearAll =>
    cases performed
    have nothing := h.contexts_clearAll
    simp [State.memory, State.label, State.held, context?, nothing]

/-- Whatever was requested, a new engine comes to agree on a project by what was addressed to the
project since it was last forgotten. -/
theorem exists_run_epoch (per : readers.AnswerPerProject fits fun key => (tables key).find?)
    (world world' : ω) (project : π) (requests : List (Request π)) :
    ∃ answers state answers' twin,
      (State.start world).run readers requests = some (answers, state) ∧
      (State.start world').run readers (epoch readers (readers.key project) requests) =
        some (answers', twin) ∧
      state.Twins readers fits (fun key => (tables key).find?) project state.trace twin.trace
        twin := by
  induction requests using List.reverseRecOn with
  | nil =>
    exact ⟨[], _, [], _, rfl, rfl, .start world, .start world', rfl, rfl, [], by simp, by simp⟩
  | append_singleton before request ih =>
    obtain ⟨answers, state, answers', twin, ran, ran', twins⟩ := ih
    obtain ⟨answer?, after, performed⟩ := twins.served.exists_perform per request
    have served := (preserves_served per).upholds.perform twins.served trivial performed
    have runs := run_concat ran performed
    rw [epoch_concat]
    by_cases clears : request.Clears readers (readers.key project)
    · rw [if_pos clears]
      obtain ⟨memory, label⟩ := twins.served.forgotten clears performed
      exact ⟨_, after, [], _, runs, rfl, served, .start world', memory, label, [], by simp, by simp⟩
    rw [if_neg clears]
    by_cases addressed : request.AddressedTo readers (readers.key project)
    · rw [if_pos addressed]
      obtain ⟨after', performed', twins'⟩ :=
        (couples_twins per project _ _).perform_of_addressed addressed twins performed
      exact ⟨_, after, _, after', runs, run_concat ran' performed', twins'.now⟩
    · rw [if_neg addressed]
      obtain ⟨other, differs, addressed'⟩ := Request.exists_other clears addressed
      obtain ⟨events, touches⟩ := twins.served.touches_perform addressed' performed
      refine ⟨_, after, answers', twin, runs, ran', served, twins.served', ?_, ?_, [], by simp,
        by simp⟩
      · rw [touches.memory differs.symm, twins.memory]
      · rw [touches.label differs.symm, twins.label]

/-- When projects are forgotten in some order, what happens for one of them is its farewell. -/
theorem State.Labelled.trace_foldl_clear (h : state.Labelled readers) {order : List π}
    (among : state.memory readers project = none ∨
      ∃ other ∈ order, readers.key other = readers.key project) :
    ∃ events,
      (order.foldl (fun state project => state.clear readers project) state).trace =
        state.trace ++ events ∧
      eventsOf readers project events =
        (state.memory readers project).toList.flatMap fun entry =>
          farewell entry (state.label readers project) := by
  induction order generalizing state with
  | nil =>
    have unknown : state.memory readers project = none := by simpa using among
    exact ⟨[], by simp, by simp [unknown, eventsOf]⟩
  | cons first rest ih =>
    have labelled := preserves_labelled.clear state first (.inl trivial) h
    obtain ⟨events, touches⟩ := h.touches_clear first
    by_cases same : readers.key first = readers.key project
    · have gone : (state.clear readers first).memory readers project = none := by
        rw [← memory_congr _ _ same, h.memory_clear]
      obtain ⟨more, traced, others⟩ := ih labelled (.inl gone)
      have here := List.append_cancel_left (touches.trace.symm.trans trace_clear)
      have own := touches.eventsOf project
      rw [if_pos same.symm] at own
      refine ⟨events ++ more, by rw [List.foldl_cons, traced, touches.trace, List.append_assoc], ?_⟩
      rw [eventsOf_append, own, others, gone, here, memory_congr _ _ same, label_congr _ _ same]
      simp
    · have differs := Ne.symm same
      have left : (state.clear readers first).memory readers project = none ∨
          ∃ other ∈ rest, readers.key other = readers.key project := by
        rw [touches.memory differs]
        rcases among with unknown | ⟨other, member, key⟩
        · exact .inl unknown
        · rcases List.mem_cons.mp member with rfl | member
          · exact absurd key same
          · exact .inr ⟨other, member, key⟩
      obtain ⟨more, traced, others⟩ := ih labelled left
      refine ⟨events ++ more, by rw [List.foldl_cons, traced, touches.trace, List.append_assoc], ?_⟩
      rw [eventsOf_append, touches.eventsOf, if_neg differs, others, touches.memory differs,
        touches.label differs, List.nil_append]

/-- An engine that remembers nothing does what a new one does. -/
theorem run_of_nothing (nothing : state.contexts = []) {answers : List (Option Answer)}
    (ran : (State.start state.world).run readers requests = some (answers, state')) :
    state.run readers requests = some (answers, state'.following state.trace) := by
  have rel : state = (State.start state.world).image id id state.trace := by
    rw [image_id]
    obtain ⟨contexts, world, trace⟩ := state
    obtain rfl : contexts = [] := nothing
    simp [State.following, State.start]
  have couples := (Readers.MapsTo.refl readers).couples_image state.trace
  obtain ⟨twin, ran', same⟩ :=
    couples.run (fun _ _ same => same ▸ (knownProjects_image ..).symm) rel ran
  rw [ran', same, image_id]

/-- **Projects are isolated**: what becomes of a project is up to the requests that were addressed
to it since it was last forgotten. After any run, every request that is addressed to the project is
answered, does the same for the project, and leaves it the same, as by a new engine that has been
given no other requests. When it is forgotten, nothing can be asked about it. When all projects are
forgotten, in whatever order, the same happens for the project as by that engine, nothing is
remembered, and all later requests are answered and done as by a new engine. -/
theorem run_depends_on_epoch (per : readers.AnswerPerProject fits fun key => (tables key).find?)
    (world world' : ω) (project : π) (requests : List (Request π)) :
    ∃ answers state answers' twin,
      (State.start world).run readers requests = some (answers, state) ∧
      (State.start world').run readers (epoch readers (readers.key project) requests) =
        some (answers', twin) ∧
      (∀ request, request.AddressedTo readers (readers.key project) →
        ∃ answer? after after' events,
          state.perform readers request = some (answer?, after) ∧
          twin.perform readers request = some (answer?, after') ∧
          after.trace = state.trace ++ events ∧ after'.trace = twin.trace ++ events ∧
          eventsOf readers project events = events ∧
          after.stats readers project = after'.stats readers project) ∧
      (state.clear readers project).stats readers project = none ∧
      ∀ order : List π, order.Perm state.knownProjects →
        let cleared := order.foldl (fun state project => state.clear readers project) state
        cleared.contexts = [] ∧
        (∃ events events', cleared.trace = state.trace ++ events ∧
          (twin.clearAll readers).trace = twin.trace ++ events' ∧
          eventsOf readers project events = eventsOf readers project events') ∧
        ∀ later, ∃ answers after,
          (State.start cleared.world).run readers later = some (answers, after) ∧
          cleared.run readers later = some (answers, after.following cleared.trace) := by
  obtain ⟨answers, state, answers', twin, ran, ran', twins⟩ :=
    exists_run_epoch per world world' project requests
  have served := twins.served
  refine ⟨answers, state, answers', twin, ran, ran', fun request addressed => ?_, ?_, ?_⟩
  · obtain ⟨answer?, after, performed⟩ := served.exists_perform per request
    obtain ⟨after', performed', twins'⟩ :=
      (couples_twins per project _ _).perform_of_addressed addressed twins performed
    obtain ⟨events, trace, trace'⟩ := twins'.events
    obtain ⟨own, touches⟩ := served.touches_perform addressed performed
    obtain rfl : own = events := List.append_cancel_left (touches.trace.symm.trans trace)
    have about : eventsOf readers project own = own := by rw [touches.eventsOf, if_pos rfl]
    exact ⟨answer?, after, after', own, performed, performed', trace, trace', about, twins'.stats⟩
  · rw [stats_eq_memory, served.memory_clear, Option.map_none]
  · intro order perm cleared
    have nothing : cleared.contexts = [] :=
      served.contexts_clearing fun other member => perm.mem_iff.mpr member
    refine ⟨nothing, ?_, fun later => ?_⟩
    · have among := (served.known_of_memory project).imp_right
        (Exists.imp fun other known => known.imp_left perm.mem_iff.mpr)
      obtain ⟨events, trace, farewell⟩ := served.trace_foldl_clear among
      obtain ⟨events', trace', farewell'⟩ :=
        twins.served'.trace_foldl_clear (twins.served'.known_of_memory project)
      exact ⟨events, events', trace, trace', by rw [farewell, farewell', twins.memory, twins.label]⟩
    · obtain ⟨answers, after, runs⟩ :=
        (Served.start cleared.world).exists_run per later
      exact ⟨answers, after, runs, run_of_nothing nothing runs⟩

/-- The circles are known in one project, and nothing in any other. -/
def circlesOfOne (project : String) : FactTable :=
  if project = "p" then circles else {}

/-- The superclass in the one project is answered as if the other had never been asked about. -/
theorem superclass_despite_others :
    ∃ answers state answers' twin answer? after after' events,
      (State.start ()).run (tableReaders circlesOfOne)
        [.ask "p" (.superclass "a.Low") true, .ask "q" (.superclass "a.Low") false, .clear "q"] =
          some (answers, state) ∧
      (State.start ()).run (tableReaders circlesOfOne) [.ask "p" (.superclass "a.Low") true] =
        some (answers', twin) ∧
      state.perform (tableReaders circlesOfOne) (.ask "p" (.superclass "a.High") false) =
        some (answer?, after) ∧
      twin.perform (tableReaders circlesOfOne) (.ask "p" (.superclass "a.High") false) =
        some (answer?, after') ∧
      after.trace = state.trace ++ events ∧ after'.trace = twin.trace ++ events ∧
      (state.knownProjects.foldl
        (fun state project => state.clear (tableReaders circlesOfOne) project) state).contexts =
          [] := by
  obtain ⟨answers, state, answers', twin, ran, ran', alike, -, cleared⟩ :=
    run_depends_on_epoch (answerPerProject_tableReaders circlesOfOne) () () "p"
      [.ask "p" (.superclass "a.Low") true, .ask "q" (.superclass "a.Low") false, .clear "q"]
  obtain ⟨answer?, after, after', events, performed, performed', trace, trace', -, -⟩ :=
    alike (.ask "p" (.superclass "a.High") false) rfl
  exact ⟨answers, state, answers', twin, answer?, after, after', events, ran, ran', performed,
    performed', trace, trace', (cleared _ (.refl _)).1⟩

end TypeLineage.Engine
