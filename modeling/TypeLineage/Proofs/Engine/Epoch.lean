import TypeLineage.Proofs.Engine.Apart
import TypeLineage.Proofs.Engine.Stability
import Mathlib.Data.List.Pairwise

/-!
# One fact for each type

From one time that a project is forgotten to the next, a type of it is read until a reader gives a
fact, and not again. That fact is what every look gives from then on, whatever the readers would say
later. A reader that knows no fact leaves everything as it was.

The facts cached for the project are thus those that were cached at first and those that readers
have given since, and they say when a type is read: just when it is looked up, by a pass that may
read, and has none.
-/

namespace TypeLineage.Engine

open Relation Hierarchy State

variable {π κ ρ ω : Type}

/-! ### Reading -/

/-- A reader of the project with the key is asked for the type. -/
def Event.Asks (readers : Readers π κ ρ ω) (key : κ) (name : TypeName) (event : Event π) : Prop :=
  ∃ written answer, event = .read written name answer ∧ readers.key written = key

/-- A reader of the project with the key gives the fact of the type. -/
def Event.Gives (readers : Readers π κ ρ ω) (key : κ) (name : TypeName) (fact : Fact)
    (event : Event π) : Prop :=
  ∃ written, event = .read written name (some fact) ∧ readers.key written = key

variable {readers : Readers π κ ρ ω} {key : κ} {name : TypeName} {fact : Fact} {event : Event π}
  {events more : List (Event π)} {before after : Facts}

theorem Event.asks_read {written : π} {type : TypeName} {answer : Option Fact} :
    (Event.read written type answer).Asks readers key name ↔
      readers.key written = key ∧ type = name := by
  constructor
  · rintro ⟨_, _, same, own⟩
    cases same
    exact ⟨own, rfl⟩
  · rintro ⟨own, rfl⟩
    exact ⟨written, answer, rfl, own⟩

theorem Event.gives_read {written : π} {type : TypeName} {answer : Option Fact} :
    (Event.read written type answer).Gives readers key name fact ↔
      readers.key written = key ∧ type = name ∧ answer = some fact := by
  constructor
  · rintro ⟨_, same, own⟩
    cases same
    exact ⟨own, rfl, rfl⟩
  · rintro ⟨own, rfl, rfl⟩
    exact ⟨written, rfl, own⟩

theorem Event.Gives.asks (h : event.Gives readers key name fact) :
    event.Asks readers key name := by
  obtain ⟨written, rfl, own⟩ := h
  exact ⟨written, some fact, rfl, own⟩

theorem Event.Asks.key_project (h : event.Asks readers key name) :
    readers.key event.project = key := by
  obtain ⟨written, answer, rfl, own⟩ := h
  exact own

/-- Readers of the project have been asked for unknown types only, and have added what they gave to
what was known. -/
structure Learned (readers : Readers π κ ρ ω) (key : κ) (before : Facts) (events : List (Event π))
    (after : Facts) : Prop where
  /-- What is known was known before, or has been given. -/
  known : ∀ name fact, after name = some fact ↔
    before name = some fact ∨ ∃ event ∈ events, event.Gives readers key name fact
  /-- What was known is not asked for. -/
  spared : ∀ name fact, before name = some fact → ∀ event ∈ events, ¬ event.Asks readers key name
  /-- What has been given is not asked for again. -/
  once : events.Pairwise fun earlier later => ∀ name fact,
    earlier.Gives readers key name fact → ¬ later.Asks readers key name

namespace Learned

theorem nothing (before : Facts) : Learned readers key before [] before :=
  ⟨by simp, by simp, .nil⟩

/-- Events in which no reader of the project is asked make no difference. -/
theorem quiet (h : Learned readers key before events after)
    (silent : ∀ event ∈ more, ∀ name, ¬ event.Asks readers key name) :
    Learned readers key before (events ++ more) after where
  known name fact := by
    have none_given : ¬ ∃ event ∈ more, event.Gives readers key name fact := by
      rintro ⟨event, member, gives⟩
      exact silent event member name gives.asks
    simp only [List.mem_append, or_and_right, exists_or, none_given, or_false]
    exact h.known name fact
  spared name fact known event member :=
    (List.mem_append.mp member).elim (h.spared name fact known event)
      fun member => silent event member name
  once := by
    refine List.pairwise_append.mpr ⟨h.once, ?_, ?_⟩
    · exact List.pairwise_of_forall_mem_list fun _ _ later member name _ _ =>
        silent later member name
    · exact fun _ _ later member name _ _ => silent later member name

/-- A type that was unknown has been asked for. -/
theorem ask (h : Learned readers key before events after) (unknown : after name = none)
    {written : π} (own : readers.key written = key) (answer : Option Fact) :
    Learned readers key before (events ++ [.read written name answer])
      fun other => if other = name then answer else after other where
  known other fact := by
    have given : (∃ event ∈ events ++ [.read written name answer],
        event.Gives readers key other fact) ↔
        (∃ event ∈ events, event.Gives readers key other fact) ∨
          name = other ∧ answer = some fact := by
      simp [or_and_right, exists_or, Event.gives_read, own]
    rw [given, ← or_assoc, ← h.known other fact]
    by_cases here : other = name
    · simp [here, unknown]
    · simp [here, Ne.symm here]
  spared other fact known event member := by
    rcases List.mem_append.mp member with member | member
    · exact h.spared other fact known event member
    · obtain rfl := List.mem_singleton.mp member
      rintro asks
      obtain rfl := (Event.asks_read.mp asks).2
      have known' := (h.known name fact).mpr (.inl known)
      simp [unknown] at known'
  once := by
    refine List.pairwise_append.mpr ⟨h.once, List.pairwise_singleton _ _, ?_⟩
    intro earlier member later member' other fact gives asks
    obtain rfl := List.mem_singleton.mp member'
    obtain rfl := (Event.asks_read.mp asks).2
    have known := (h.known name fact).mpr (.inr ⟨earlier, member, gives⟩)
    simp [unknown] at known

end Learned

/-! ### From one time that a project is forgotten to the next -/

variable [DecidableEq κ] {first state state' : State π κ ρ ω} {project other : π}

/-- What is cached for a project has been learned since the engine was in the first state. -/
structure State.LearnedSince (readers : Readers π κ ρ ω) (project : π)
    (first state : State π κ ρ ω) : Prop extends State.Labelled readers state where
  /-- The events since then account for it. -/
  learned : ∃ events, state.trace = first.trace ++ events ∧
    Learned readers (readers.key project) (first.cached readers project) events
      (state.cached readers project)

namespace State.LearnedSince

theorem refl (labelled : state.Labelled readers) (project : π) :
    LearnedSince readers project state state :=
  ⟨labelled, [], by simp, .nothing _⟩

/-- Events in which no reader of the project is asked, and by which no fact of it is cached or lost,
make no difference. -/
theorem quiet (h : LearnedSince readers project first state) (labelled : state'.Labelled readers)
    (trace : state'.trace = state.trace ++ more)
    (silent : ∀ event ∈ more, ∀ name, ¬ event.Asks readers (readers.key project) name)
    (cached : state'.cached readers project = state.cached readers project) :
    LearnedSince readers project first state' := by
  obtain ⟨events, traced, learned⟩ := h.learned
  refine ⟨labelled, events ++ more, by rw [trace, traced, List.append_assoc], ?_⟩
  rw [cached]
  exact learned.quiet silent

/-- If nothing is done at all, that is so in particular. -/
theorem silent (h : LearnedSince readers project first state) (labelled : state'.Labelled readers)
    (trace : state'.trace = state.trace)
    (cached : state'.cached readers project = state.cached readers project) :
    LearnedSince readers project first state' :=
  h.quiet labelled (trace.trans (List.append_nil _).symm) (by simp) cached

/-- Work on another project makes no difference. -/
theorem of_touches (h : LearnedSince readers project first state)
    (labelled : state'.Labelled readers) (touches : Touches readers other state state' events)
    (differs : readers.key other ≠ readers.key project) :
    LearnedSince readers project first state' := by
  refine h.quiet labelled touches.trace (fun event member name asks => ?_)
    (touches.cached (Ne.symm differs))
  exact differs ((touches.own event member).symm.trans asks.key_project)

/-- A look at the project learns at most what a reader gives. -/
theorem look (h : LearnedSince readers project first state) (pass : Pass)
    (same : readers.key other = readers.key project) (name : TypeName) :
    LearnedSince readers project first (look readers pass other name state).2 := by
  have labelled := preserves_labelled.look pass other name state h.toLabelled
  cases known : state.cached readers other name with
  | some fact =>
    rw [look_of_cached known] at labelled ⊢
    exact h.silent labelled (by simp) (by simp)
  | none =>
    cases pass with
    | cachedOnly => exact h.silent labelled (by simp [Engine.look]) (by simp [Engine.look])
    | full =>
      obtain ⟨made, written, reader, world, takes⟩ := exists_takes readers state other
      rcases read : readers.read reader name world with ⟨answer, reader', world'⟩
      have own := takes.own h.toLabelled name answer
      have cached : (Engine.look readers .full other name state).2.cached readers project =
          fun type => if type = name then answer else state.cached readers project type := by
        funext type
        rw [Engine.look, cached_lookFull_of_not_cached known, takes.lookFull known read]
        simp [same]
      obtain ⟨events, traced, learned⟩ := h.learned
      refine ⟨labelled, events ++ (made ++ [.read written name answer]), ?_, ?_⟩
      · rw [Engine.look, takes.lookFull known read, trace_setContext, traced, List.append_assoc]
      · rw [cached, ← List.append_assoc]
        refine (learned.quiet ?_).ask ?_ ?_ answer
        · cases takes with
          | held => simp
          | made => simp [Event.Asks]
        · rw [← cached_congr state same, known]
        · exact (own (.read written name answer) (by simp)).trans same

end State.LearnedSince

theorem preserves_learnedSince (project : π) (first : State π κ ρ ω) :
    Preserves readers (fun request => ¬ request.Clears readers (readers.key project))
      (State.LearnedSince readers project first) where
  look pass other name state h := by
    by_cases same : readers.key other = readers.key project
    · exact h.look pass same name
    · obtain ⟨events, touches⟩ := h.touches_look pass other name
      exact h.of_touches (preserves_labelled.look pass other name state h.toLabelled) touches same
  cleanup state other h := by
    have labelled := preserves_labelled.cleanup state other h.toLabelled
    obtain same | ⟨written, released⟩ := state.trace_cleanup readers other
    · exact h.silent labelled same (by simp)
    · exact h.quiet labelled released (by simp [Event.Asks]) (by simp)
  clear state other permitted h := by
    have differs : readers.key other ≠ readers.key project := by
      rcases permitted with spared | spared
      · exact spared
      · exact absurd trivial spared
    obtain ⟨events, touches⟩ := h.touches_clear other
    have labelled := preserves_labelled.clear state other (.inl trivial) h.toLabelled
    exact h.of_touches labelled touches differs
  drift _ _ h := ⟨⟨h.congr rfl, h.label⟩, h.learned⟩

/-- A look at what is not cached asks a reader of the project and gives its answer; if that is none,
no cached fact changes. -/
theorem State.Labelled.exists_asked (labelled : state.Labelled readers)
    (unknown : state.cached readers project name = none) :
    ∃ made written, (look readers .full project name state).2.trace =
        state.trace ++ (made ++ [.read written name (look readers .full project name state).1]) ∧
      readers.key written = readers.key project ∧
      ((look readers .full project name state).1 = none → ∀ other,
        (look readers .full project name state).2.cached readers other =
          state.cached readers other) := by
  obtain ⟨made, written, reader, world, takes⟩ := exists_takes readers state project
  rcases read : readers.read reader name world with ⟨answer, reader', world'⟩
  refine ⟨made, written, ?_, ?_, fun given other => ?_⟩
  · rw [look, takes.lookFull unknown read, trace_setContext]
  · exact takes.own labelled name answer (.read written name answer) (by simp)
  · funext type
    rw [look] at given ⊢
    rw [cached_lookFull_of_not_cached unknown, given]
    split
    case isTrue here => rw [here.2, cached_congr state here.1, unknown]
    case isFalse => rfl

/-- **Facts are read once and kept.** From one time that a project is forgotten to the next,
whatever the readers do: a type is not read again once a reader has given its fact; what is cached
is what was cached at first and what has been given since, so that it only grows; what is cached is
what every look gives, and nothing is read for it; what is not cached is read by every look that may
read, and if the reader gives nothing, no cached fact changes; nor does one when a reader is
released, by itself or after an answer. -/
theorem facts_of_epoch (reachable : Reachable readers first)
    (epoch : Amid readers (fun request => ¬ request.Clears readers (readers.key project)) first
      state) :
    ∃ events, state.trace = first.trace ++ events ∧
      (events.Pairwise fun earlier later => ∀ name fact,
        earlier.Gives readers (readers.key project) name fact →
          ¬ later.Asks readers (readers.key project) name) ∧
      (∀ name fact, first.cached readers project name = some fact →
        ∀ event ∈ events, ¬ event.Asks readers (readers.key project) name) ∧
      (∀ name fact, state.cached readers project name = some fact ↔
        first.cached readers project name = some fact ∨
          ∃ event ∈ events, event.Gives readers (readers.key project) name fact) ∧
      Grows (first.cached readers project) (state.cached readers project) ∧
      ∀ other, readers.key other = readers.key project →
        (∀ name fact, state.cached readers project name = some fact → ∀ pass,
          (look readers pass other name state).1 = some fact ∧
            (look readers pass other name state).2.trace = state.trace) ∧
        (∀ name, state.cached readers project name = none →
          ∃ made written,
            (look readers .full other name state).2.trace = state.trace ++
              (made ++ [.read written name (look readers .full other name state).1]) ∧
            readers.key written = readers.key project ∧
            ((look readers .full other name state).1 = none → ∀ third,
              (look readers .full other name state).2.cached readers third =
                state.cached readers third)) ∧
        (state.cleanup readers other).cached readers project = state.cached readers project ∧
        ∀ question cleanup answer after,
          state.ask readers other question cleanup = some (answer, after) →
          ∃ unreleased, state.ask readers other question false = some (answer, unreleased) ∧
            after.cached readers project = unreleased.cached readers project := by
  have learnedSince :=
    (preserves_learnedSince project first).amid (.refl reachable.labelled project) epoch
  obtain ⟨events, trace, learned⟩ := learnedSince.learned
  refine ⟨events, trace, learned.once, learned.spared, learned.known,
    fun name fact known => (learned.known name fact).mpr (.inl known), fun other same => ?_⟩
  have own := cached_congr state same
  refine ⟨fun name fact known pass => ?_, fun name unknown => ?_, ?_, ?_⟩
  · rw [← own] at known
    rw [look_of_cached known, lookCached_fst]
    exact ⟨known, by simp⟩
  · obtain ⟨made, written, traced, label, kept⟩ :=
      learnedSince.toLabelled.exists_asked (own ▸ unknown)
    exact ⟨made, written, traced, label.trans same, kept⟩
  · simp
  · intro question cleanup answer after asked
    obtain ⟨⟨answer₁, unreleased⟩, answered, asked⟩ := Option.bind_eq_some_iff.mp asked
    cases asked
    exact ⟨unreleased, ask_of_answer answered, by rw [cached_finish]⟩

/-- The class is still looked up with its fact when the table has been emptied, and its superclass
is then asked for in vain. -/
theorem looks_after_change :
    (∀ pass, (look changing pass "p" ⟨"a/Low"⟩ { lowKnown with world := {} }).1 =
      some { subject := ⟨"a/Low"⟩, superclass := some ⟨"a/High"⟩ }) ∧
    ∃ made written,
      (look changing .full "p" ⟨"a/High"⟩ { lowKnown with world := {} }).2.trace =
        lowKnown.trace ++ (made ++ [.read written ⟨"a/High"⟩ none]) := by
  have low : TypeName.ofString "a.Low" = ⟨"a/Low"⟩ := by decide
  have asked : (State.start lowClass).ask changing "p" (.superclass "a.Low") false =
      some (.name (some ⟨"a/High"⟩), lowKnown) :=
    ask_of_answer (by rw [answer_superclass, low]; rfl)
  have performed : (State.start lowClass).perform changing (.ask "p" (.superclass "a.Low") false) =
      some (some (.name (some ⟨"a/High"⟩)), lowKnown) := by simp [State.perform, asked]
  have epoch : Amid changing (fun request => ¬ request.Clears changing "p") (.start lowClass)
      { lowKnown with world := {} } :=
    ⟨_, .tail (.single (.perform (by simp [Request.Clears]) performed)) (.drift {}), .refl⟩
  obtain ⟨events, -, -, -, -, -, own⟩ := facts_of_epoch ⟨lowClass, .refl⟩ epoch
  obtain ⟨given, asks, -⟩ := own "p" rfl
  refine ⟨fun pass => (given ⟨"a/Low"⟩ _ rfl pass).1, ?_⟩
  obtain ⟨made, written, traced, -⟩ := asks ⟨"a/High"⟩ rfl
  exact ⟨made, written, traced⟩

end TypeLineage.Engine
