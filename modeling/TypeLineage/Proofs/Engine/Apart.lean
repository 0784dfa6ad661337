import TypeLineage.Proofs.Engine.Handling

/-!
# Projects keep apart

A reader stays with the project that it was made for, so all that is seen of the work on a project
bears that project's name, in one spelling or another, and no other project is touched by it.
-/

namespace TypeLineage.Engine

variable {π κ ρ ω : Type}

/-- The project that an event is about, as it is written there. -/
def Event.project : Event π → π
  | .create project => project
  | .read project _ _ => project
  | .release project _ => project
  | .forget project _ => project

/-- The request is addressed to the project with the key, and to no other. -/
def Request.AddressedTo (readers : Readers π κ ρ ω) (key : κ) : Request π → Prop
  | .ask project _ _ => readers.key project = key
  | .cleanup project => readers.key project = key
  | .clear project => readers.key project = key
  | .clearAll => False

variable [DecidableEq κ]

/-- Those of the events that are about a project. -/
def eventsOf (readers : Readers π κ ρ ω) (project : π) (events : List (Event π)) : List (Event π) :=
  events.filter fun event => readers.key event.project = readers.key project

@[simp] theorem eventsOf_append (readers : Readers π κ ρ ω) (project : π)
    (events more : List (Event π)) :
    eventsOf readers project (events ++ more) =
      eventsOf readers project events ++ eventsOf readers project more :=
  List.filter_append ..

/-- If all events are about one project, those that are about another are none. -/
theorem eventsOf_of_own {readers : Readers π κ ρ ω} {project : π} {events : List (Event π)}
    (own : ∀ event ∈ events, readers.key event.project = readers.key project) (other : π) :
    eventsOf readers other events =
      if readers.key other = readers.key project then events else [] := by
  split
  case isTrue same =>
    exact List.filter_eq_self.mpr fun event member => by simp [own event member, same]
  case isFalse differs =>
    exact List.filter_eq_nil_iff.mpr fun event member => by simp [own event member, Ne.symm differs]

/-- Every project has one entry, and the reader in it was made for that project. -/
structure State.Labelled (readers : Readers π κ ρ ω) (state : State π κ ρ ω) : Prop
    extends State.Indexed readers state where
  /-- The project that a reader was made for is the one that it is in use for. -/
  label : ∀ project written reader, state.held readers project = some (written, reader) →
    readers.key written = readers.key project

/-- What lies between two states is work on one project, with these events. -/
structure State.Touches (readers : Readers π κ ρ ω) (project : π) (state state' : State π κ ρ ω)
    (events : List (Event π)) : Prop where
  /-- The events have been added. -/
  trace : state'.trace = state.trace ++ events
  /-- They are about the project. -/
  own : ∀ event ∈ events, readers.key event.project = readers.key project
  /-- Nothing else that is remembered has changed. -/
  others : ∀ other, readers.key other ≠ readers.key project →
    state'.context? readers other = state.context? readers other

namespace State

variable {readers : Readers π κ ρ ω} {state state' third : State π κ ρ ω} {project : π}
  {events more : List (Event π)}

/-! ### Work on one project -/

theorem Touches.refl (readers : Readers π κ ρ ω) (project : π) (state : State π κ ρ ω) :
    Touches readers project state state [] :=
  ⟨by simp, by simp, fun _ _ => rfl⟩

theorem Touches.trans (h : Touches readers project state state' events)
    (h' : Touches readers project state' third more) :
    Touches readers project state third (events ++ more) where
  trace := by rw [h'.trace, h.trace, List.append_assoc]
  own event member := (List.mem_append.mp member).elim (h.own event) (h'.own event)
  others other differs := (h'.others other differs).trans (h.others other differs)

/-- All that is remembered of another project is what was. -/
theorem Touches.held (h : Touches readers project state state' events) {other : π}
    (differs : readers.key other ≠ readers.key project) :
    state'.held readers other = state.held readers other := by
  rw [State.held, State.held, h.others other differs]

theorem Touches.cached (h : Touches readers project state state' events) {other : π}
    (differs : readers.key other ≠ readers.key project) :
    state'.cached readers other = state.cached readers other := by
  funext name
  rw [State.cached, State.cached, h.others other differs]

theorem Touches.eventsOf (h : Touches readers project state state' events) (other : π) :
    eventsOf readers other events =
      if readers.key other = readers.key project then events else [] :=
  eventsOf_of_own h.own other

/-- Another context is remembered of the project, with events that are about it. -/
theorem Touches.setContext {context : Context π ρ} {world : ω}
    (own : ∀ event ∈ events, readers.key event.project = readers.key project) :
    Touches readers project state
      ({ state with world, trace := state.trace ++ events }.setContext readers project context)
      events where
  trace := rfl
  own := own
  others other differs := by
    rw [context?_setContext, if_neg differs]
    rfl

/-! ### One operation -/

theorem Takes.own (labelled : state.Labelled readers) {made : List (Event π)} {written : π}
    {reader : ρ} {world : ω} (takes : Takes readers state project made written reader world)
    (name : TypeName) (answer : Option Fact) :
    ∀ event ∈ made ++ [.read written name answer],
      readers.key event.project = readers.key project := by
  cases takes with
  | held inUse => simpa [Event.project] using labelled.label project written reader inUse
  | made => simp [Event.project]

theorem Labelled.touches_look (h : state.Labelled readers) (pass : Pass) (project : π)
    (name : TypeName) :
    ∃ events, Touches readers project state (look readers pass project name state).2 events := by
  have ofCached : Touches readers project state (state.lookCached readers project name).2 [] := by
    refine ⟨by simp, by simp, fun other differs => ?_⟩
    rw [context?_lookCached, if_neg differs]
  cases pass with
  | cachedOnly => exact ⟨_, ofCached⟩
  | full =>
    cases known : state.cached readers project name with
    | some fact => exact ⟨[], by rwa [look_of_cached known]⟩
    | none =>
      obtain ⟨made, written, reader, world, takes⟩ := exists_takes readers state project
      rcases read : readers.read reader name world with ⟨answer, reader', world'⟩
      rw [look, takes.lookFull known read]
      exact ⟨_, .setContext (takes.own h name answer)⟩

theorem Labelled.touches_cleanup (h : state.Labelled readers) (project : π) :
    ∃ events, Touches readers project state (state.cleanup readers project) events := by
  cases inUse : state.held readers project with
  | none => exact ⟨[], by rw [cleanup_of_not_held inUse]; exact .refl readers project state⟩
  | some held =>
    rw [cleanup_of_held inUse]
    exact ⟨_, .setContext (by simpa [Event.project] using h.label project held.1 held.2 inUse)⟩

theorem Labelled.touches_clear (h : state.Labelled readers) (project : π) :
    ∃ events, Touches readers project state (state.clear readers project) events := by
  have others : ∀ other, readers.key other ≠ readers.key project →
      (state.clear readers project).context? readers other = state.context? readers other := by
    intro other differs
    rw [context?, contexts_clear]
    split
    · exact lookup_removeEntry_of_ne differs _
    · rfl
  cases known : state.context? readers project with
  | none => exact ⟨[], by rw [clear_of_not_known known]; exact .refl readers project state⟩
  | some context =>
    have own : readers.key context.project = readers.key project := by
      simpa [contextOrNew, known] using h.key_contextOrNew project
    cases inUse : context.reader with
    | none =>
      rw [clear_of_not_held known inUse] at others ⊢
      exact ⟨_, rfl, by simpa [Event.project] using own, others⟩
    | some held =>
      have label := h.label project held.1 held.2 (by simp [State.held, known, inUse])
      rw [clear_of_held known inUse] at others ⊢
      exact ⟨_, rfl, by simp [Event.project, own, label], others⟩

end State

/-! ### Every reader stays with its project -/

open State

variable {readers : Readers π κ ρ ω} {state : State π κ ρ ω}

theorem State.Labelled.start (world : ω) : (State.start world).Labelled readers where
  toIndexed := .start world
  label _ _ _ inUse := by simp [State.held, State.context?, State.start] at inUse

/-- A reader is made for the project that it is used for, and is asked as the same. -/
theorem State.Labelled.label_of_handles {project : π} {state' : State π κ ρ ω}
    (h : state.Labelled readers) (handles : Handles readers project state state') :
    ∀ other written reader, state'.held readers other = some (written, reader) →
      readers.key written = readers.key other := by
  refine handles.all_held (p := fun key written _ => readers.key written = key) ?_ ?_ h.label
  · exact fun _ _ _ _ => rfl
  · exact fun _ _ _ _ _ own => own

theorem preserves_labelled : Preserves readers (fun _ => True) (State.Labelled readers) where
  look pass project name state h :=
    ⟨h.look pass project name, h.label_of_handles (handles_look readers state project pass name)⟩
  cleanup state project h :=
    ⟨h.cleanup project, h.label_of_handles (handles_cleanup readers state project)⟩
  clear _ project _ h := ⟨h.clear project, h.label_of_handles (h.handles_clear project)⟩
  drift _ _ h := ⟨h.congr rfl, h.label⟩

/-- What is kept whatever an operation does with readers, all operations keep. -/
theorem upholds_of_handles {inv : State π κ ρ ω → Prop}
    (keeps : ∀ project state state', state.Labelled readers → Handles readers project state state' →
      inv state → inv state') :
    Upholds readers (fun _ => True) fun state => state.Labelled readers ∧ inv state where
  look pass project name state h :=
    ⟨preserves_labelled.look pass project name state h.1,
      keeps project state _ h.1 (handles_look readers state project pass name) h.2⟩
  cleanup state project h :=
    ⟨preserves_labelled.cleanup state project h.1,
      keeps project state _ h.1 (handles_cleanup readers state project) h.2⟩
  clear state project permitted h :=
    ⟨preserves_labelled.clear state project permitted h.1,
      keeps project state _ h.1 (h.1.handles_clear project) h.2⟩

theorem Reachable.labelled (reachable : Reachable readers state) : state.Labelled readers :=
  preserves_labelled.of_reachable reachable .start

/-! ### What is addressed to one project -/

/-- An answer about a project takes work on that project only. -/
theorem State.Labelled.touches_answer (h : state.Labelled readers) {project : π}
    {question : Question} {answer : Answer} {state' : State π κ ρ ω}
    (answered : state.answer readers project question = some (answer, state')) :
    ∃ events, Touches readers project state state' events := by
  have looks : ∀ pass, Keeps (look readers pass project) fun state' =>
      state'.Labelled readers ∧ ∃ events, Touches readers project state state' events := by
    rintro pass name state' ⟨labelled, events, touches⟩
    obtain ⟨more, touches'⟩ := labelled.touches_look pass project name
    exact ⟨preserves_labelled.look pass project name state' labelled, _, touches.trans touches'⟩
  exact (keeps_of_answer looks ⟨h, _, .refl readers project state⟩ answered).2

theorem State.Labelled.touches_ask (h : state.Labelled readers) {project : π} {question : Question}
    {cleanup : Bool} {answer : Answer} {state' : State π κ ρ ω}
    (asked : state.ask readers project question cleanup = some (answer, state')) :
    ∃ events, Touches readers project state state' events := by
  obtain ⟨⟨answer₁, state₁⟩, answered, asked⟩ := Option.bind_eq_some_iff.mp asked
  cases asked
  obtain ⟨events, touches⟩ := h.touches_answer answered
  cases cleanup with
  | false => exact ⟨events, touches⟩
  | true =>
    have labelled := keeps_of_answer (fun pass => preserves_labelled.look pass project) h answered
    obtain ⟨more, touches'⟩ := labelled.touches_cleanup project
    exact ⟨_, touches.trans touches'⟩

/-- So does whatever is requested of a project. -/
theorem State.Labelled.touches_perform (h : state.Labelled readers) {project : π}
    {request : Request π} (addressed : request.AddressedTo readers (readers.key project))
    {answer? : Option Answer} {state' : State π κ ρ ω}
    (performed : state.perform readers request = some (answer?, state')) :
    ∃ events, Touches readers project state state' events := by
  have rename : ∀ {other events}, readers.key other = readers.key project →
      Touches readers other state state' events → Touches readers project state state' events :=
    fun same touches => ⟨touches.trace, same ▸ touches.own, same ▸ touches.others⟩
  cases request with
  | ask other question cleanup =>
    obtain ⟨⟨answer, state₂⟩, asked, performed⟩ := Option.bind_eq_some_iff.mp performed
    cases performed
    obtain ⟨events, touches⟩ := h.touches_ask asked
    exact ⟨_, rename addressed touches⟩
  | cleanup other =>
    cases performed
    obtain ⟨events, touches⟩ := h.touches_cleanup other
    exact ⟨_, rename addressed touches⟩
  | clear other =>
    cases performed
    obtain ⟨events, touches⟩ := h.touches_clear other
    exact ⟨_, rename addressed touches⟩
  | clearAll => exact absurd addressed id

end TypeLineage.Engine
