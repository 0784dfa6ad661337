import TypeLineage.Proofs.Engine.Epoch
import TypeLineage.Proofs.Walk.Recorded

/-!
# What a question looks up

For the answer to a question types are looked up, by one pass or by two. What is looked up is told
here by the same walks over looks that keep a record, and what readers are asked for that by the
events: a type is read when a pass that may read looks it up and has no fact.
-/

namespace TypeLineage.Engine

open Hierarchy Look State

variable {π κ ρ ω : Type} [DecidableEq κ]

/-! ### Reads -/

/-- What a reader of the project with the key is asked for, with its answer. -/
def Event.read? (readers : Readers π κ ρ ω) (key : κ) : Event π → Option (TypeName × Option Fact)
  | .read written name answer => if readers.key written = key then some (name, answer) else none
  | _ => none

/-- What readers of the project with the key have been asked for, with their answers. -/
def readsOf (readers : Readers π κ ρ ω) (key : κ) (events : List (Event π)) :
    List (TypeName × Option Fact) :=
  events.filterMap (Event.read? readers key)

section Reads

variable {readers : Readers π κ ρ ω} {key : κ} {events more : List (Event π)}

theorem Event.read?_eq_some_iff {event : Event π} {name : TypeName} {answer : Option Fact} :
    event.read? readers key = some (name, answer) ↔
      ∃ written, event = .read written name answer ∧ readers.key written = key := by
  constructor
  · intro given
    cases event with
    | read written other answer' =>
      simp only [read?, Option.ite_none_right_eq_some, Option.some.injEq, Prod.mk.injEq] at given
      obtain ⟨own, rfl, rfl⟩ := given
      exact ⟨written, rfl, own⟩
    | create | release | forget => cases given
  · rintro ⟨written, rfl, own⟩
    rw [read?, if_pos own]

@[simp] theorem readsOf_append :
    readsOf readers key (events ++ more) = readsOf readers key events ++ readsOf readers key more :=
  List.filterMap_append

/-- What is read is asked for. -/
theorem exists_asks_of_mem_readsOf {name : TypeName} {answer : Option Fact}
    (read : (name, answer) ∈ readsOf readers key events) :
    ∃ event ∈ events, event.Asks readers key name := by
  obtain ⟨event, member, given⟩ := List.mem_filterMap.mp read
  obtain ⟨written, same, own⟩ := Event.read?_eq_some_iff.mp given
  exact ⟨event, member, written, answer, same, own⟩

/-- Where no reader of the project is asked nothing is read. -/
theorem readsOf_of_silent
    (silent : ∀ event ∈ events, ∀ name, ¬ event.Asks readers key name) :
    readsOf readers key events = [] := by
  refine List.eq_nil_iff_forall_not_mem.mpr ?_
  rintro ⟨name, answer⟩ read
  obtain ⟨event, member, asks⟩ := exists_asks_of_mem_readsOf read
  exact silent event member name asks

/-- Once a fact has been given, its type is not read again. -/
theorem Learned.pairwise_readsOf {before after : Facts}
    (h : Learned readers key before events after) :
    (readsOf readers key events).Pairwise fun earlier later =>
      earlier.2.isSome → later.1 ≠ earlier.1 := by
  refine List.pairwise_filterMap.mpr (h.once.imp ?_)
  rintro earlier later once ⟨name, answer⟩ given ⟨name', answer'⟩ given' some rfl
  obtain ⟨written, rfl, own⟩ := Event.read?_eq_some_iff.mp given
  obtain ⟨written', rfl, own'⟩ := Event.read?_eq_some_iff.mp given'
  obtain ⟨fact, rfl⟩ := Option.isSome_iff_exists.mp some
  exact once name' fact ⟨written, rfl, own⟩ ⟨written', answer', rfl, own'⟩

/-- What was known is not read. -/
theorem Learned.unknown_of_readsOf {before after : Facts}
    (h : Learned readers key before events after) {name : TypeName}
    (read : name ∈ (readsOf readers key events).map Prod.fst) : before name = none := by
  obtain ⟨⟨name, answer⟩, member, rfl⟩ := List.mem_map.mp read
  obtain ⟨event, member, asks⟩ := exists_asks_of_mem_readsOf member
  cases known : before name with
  | none => rfl
  | some fact => exact absurd asks (h.spared name fact known event member)

end Reads

variable {readers : Readers π κ ρ ω} {state after : State π κ ρ ω} {project : π}

/-- A type is read when a pass that may read has no fact for it. -/
theorem State.Labelled.reads_of_look (labelled : state.Labelled readers) (pass : Pass) (project : π)
    (name : TypeName) :
    ∃ events, (look readers pass project name state).2.trace = state.trace ++ events ∧
      readsOf readers (readers.key project) events =
        if pass = .full ∧ state.cached readers project name = none then
          [(name, (look readers pass project name state).1)]
        else [] := by
  cases known : state.cached readers project name with
  | some fact =>
    refine ⟨[], ?_, by simp [readsOf]⟩
    rw [look_of_cached known, trace_lookCached, List.append_nil]
  | none =>
    cases pass with
    | cachedOnly => exact ⟨[], by simp [look], by simp [readsOf]⟩
    | full =>
      obtain ⟨made, written, reader, world, takes⟩ := exists_takes readers state project
      rcases read : readers.read reader name world with ⟨answer, reader', world'⟩
      have own := takes.own labelled name answer (.read written name answer) (by simp)
      refine ⟨made ++ [.read written name answer], ?_, ?_⟩
      · rw [look, takes.lookFull known read, trace_setContext]
      · rw [look, takes.lookFull known read, readsOf_append]
        have asked : readsOf readers (readers.key project) [.read written name answer] =
            [(name, answer)] := by
          have own' : readers.key written = readers.key project := own
          simp [readsOf, Event.read?, own']
        have silent : readsOf readers (readers.key project) made = [] := by
          cases takes with
          | held => rfl
          | made => rfl
        rw [asked, silent]
        rfl

omit [DecidableEq κ] in
theorem Event.Asks.isFetch {key : κ} {event : Event π} {name : TypeName}
    (asks : event.Asks readers key name) : event.isFetch = true := by
  obtain ⟨written, answer, rfl, -⟩ := asks
  rfl

variable (readers state) in
/-- After an answer nothing is read. -/
theorem exists_finish (key : κ) (other : π) (cleanup : Bool) :
    ∃ events, (state.finish readers other cleanup).trace = state.trace ++ events ∧
      readsOf readers key events = [] := by
  obtain ⟨events, trace, quiet⟩ := trace_finish readers state other cleanup
  refine ⟨events, trace, readsOf_of_silent ?_⟩
  intro event member name asks
  exact absurd asks.isFetch (by simp [quiet event member])

/-! ### Questions with a record -/

variable (readers) in
/-- The looks of a pass at a project, with a record of them. -/
def recordedLook (project : π) (pass : Pass) :
    Look (State π κ ρ ω × List (Lookup (State π κ ρ ω))) :=
  Look.recorded pass (look readers pass project)

/-- The record of a walk that has ended. -/
def recordOf {α σ : Type} (result : Option (α × σ × List (Lookup σ))) : List (Lookup σ) :=
  result.elim [] fun ended => ended.2.2

variable (readers) in
/-- What is looked up for the answer to a question, the first look first. -/
def State.lookups (state : State π κ ρ ω) (project : π) :
    Question → List (Lookup (State π κ ρ ω))
  | .superclass type => [⟨.full, .ofString type, state⟩]
  | .interfaces type => [⟨.full, .ofString type, state⟩]
  | .extendsClass type target =>
    recordOf (climb (recordedLook readers project .full) (.ofString target)
      (some (.ofString type)) [] (state, []))
  | .implementsInterface type target =>
    let search pass recording := searchClasses (recordedLook readers project pass) pass
      (.ofString target) (some (.ofString type)) {} recording
    match search .cachedOnly (state, []) with
    | some (.inconclusive, recording) => recordOf (search .full recording)
    | decided => recordOf decided

section Record

variable {type target : String} {record more : List (Lookup (State π κ ρ ω))} {holds : Bool}
  {verdict : Verdict} {between : State π κ ρ ω}

theorem lookups_of_climb
    (climbed : climb (recordedLook readers project .full) (.ofString target)
      (some (.ofString type)) [] (state, []) = some (holds, after, record)) :
    state.lookups readers project (.extendsClass type target) = record := by
  rw [lookups, climbed]
  rfl

theorem lookups_of_decided
    (cachedPass : searchClasses (recordedLook readers project .cachedOnly) .cachedOnly
      (.ofString target) (some (.ofString type)) {} (state, []) = some (verdict, after, record))
    (decided : verdict ≠ .inconclusive) :
    state.lookups readers project (.implementsInterface type target) = record := by
  simp only [lookups, cachedPass]
  cases verdict with
  | found | absent => rfl
  | inconclusive => exact absurd rfl decided

theorem lookups_of_inconclusive
    (cachedPass : searchClasses (recordedLook readers project .cachedOnly) .cachedOnly
      (.ofString target) (some (.ofString type)) {} (state, []) =
        some (.inconclusive, between, record))
    (fullPass : searchClasses (recordedLook readers project .full) .full (.ofString target)
      (some (.ofString type)) {} (between, record) = some (verdict, after, more)) :
    state.lookups readers project (.implementsInterface type target) = more := by
  simp only [lookups, cachedPass, fullPass]
  rfl

end Record

/-- A climb goes the same way with a record. -/
theorem exists_recorded_climb {name target : TypeName} {holds : Bool}
    (climbed : climb (look readers .full project) target (some name) [] state = some (holds, after))
    (before : List (Lookup (State π κ ρ ω))) :
    ∃ record, climb (recordedLook readers project .full) target (some name) [] (state, before) =
      some (holds, after, record) := by
  have simulates := simulates_recorded .full (look readers .full project)
  have alike : (state, before).1 = state := rfl
  obtain ⟨⟨_, record⟩, climbed', rfl⟩ := simulates.of_climb alike climbed
  exact ⟨record, climbed'⟩

/-- So does a pass. -/
theorem exists_recorded_pass {name target : TypeName} {pass : Pass} {verdict : Verdict}
    (searched : searchPass readers pass project name target state = some (verdict, after))
    (before : List (Lookup (State π κ ρ ω))) :
    ∃ record, searchClasses (recordedLook readers project pass) pass target (some name) {}
      (state, before) = some (verdict, after, record) := by
  have simulates := simulates_recorded pass (look readers pass project)
  have alike : (state, before).1 = state := rfl
  obtain ⟨⟨_, record⟩, searched', rfl⟩ := simulates.of_pass alike searched
  exact ⟨record, searched'⟩

/-- What looks with a record keep, an answer keeps with what is looked up for it. -/
theorem keeps_lookups {inv : State π κ ρ ω × List (Lookup (State π κ ρ ω)) → Prop}
    (looks : ∀ pass, Keeps (recordedLook readers project pass) inv) (valid : inv (state, []))
    {question : Question} {answer : Answer}
    (answered : state.answer readers project question = some (answer, after)) :
    inv (after, state.lookups readers project question) := by
  cases question with
  | superclass type =>
    cases answered
    exact looks .full (.ofString type) _ valid
  | interfaces type =>
    cases answered
    exact looks .full (.ofString type) _ valid
  | extendsClass type target =>
    obtain ⟨⟨holds, state₁⟩, climbed, answered⟩ := Option.bind_eq_some_iff.mp answered
    cases answered
    obtain ⟨record, climbed'⟩ := exists_recorded_climb climbed []
    rw [lookups_of_climb climbed']
    exact (looks .full).of_climbs valid (.of_eq climbed')
  | implementsInterface type target =>
    obtain ⟨⟨holds, state₁⟩, searched, answered⟩ := Option.bind_eq_some_iff.mp answered
    cases answered
    obtain ⟨⟨verdict, state₁⟩, cachedPass, rest⟩ := Option.bind_eq_some_iff.mp searched
    obtain ⟨record₁, cachedPass'⟩ := exists_recorded_pass cachedPass []
    obtain ⟨met₁, course⟩ := SearchesClasses.of_eq cachedPass'
    have valid₁ := (looks .cachedOnly).of_searchesClasses valid course
    cases verdict with
    | found | absent =>
      cases rest
      rwa [lookups_of_decided cachedPass' (by decide)]
    | inconclusive =>
      obtain ⟨⟨verdict, state₂⟩, fullPass, rest⟩ := Option.bind_eq_some_iff.mp rest
      cases rest
      -- The second pass goes on with the record of the first.
      obtain ⟨record₂, fullPass'⟩ := exists_recorded_pass fullPass record₁
      obtain ⟨met₂, course'⟩ := SearchesClasses.of_eq fullPass'
      rw [lookups_of_inconclusive cachedPass' fullPass']
      exact (looks .full).of_searchesClasses valid₁ course'

end TypeLineage.Engine
