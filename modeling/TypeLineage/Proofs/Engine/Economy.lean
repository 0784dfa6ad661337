import TypeLineage.Proofs.Engine.Answers
import TypeLineage.Proofs.Engine.Hearsay
import TypeLineage.Proofs.Engine.Lookups

/-!
# What a question costs

A question reads only what it needs. Asked for its superclass or its interfaces, a type is read by
itself. Asked whether it extends a class, the superclass chain is looked up as far as that class or
its end, and read where there is no fact yet. Asked whether it implements an interface, what is read
is met on the way, as a class or as an interface; so a name is read twice at most, and twice only if
it is both and no reader has given its fact.
-/

namespace TypeLineage.Engine

open Hierarchy Look State

variable {π κ ρ ω : Type} [DecidableEq κ] {readers : Readers π κ ρ ω} {project : π}
  {first state after : State π κ ρ ω} {names : List TypeName} {events : List (Event π)}

/-- What a question looks up and reads if some facts are cached already, and facts say where
superclasses and interfaces lead. -/
def Economical (cached facts : Facts) (looked read : List TypeName) : Question → Prop
  | .superclass type =>
    looked = [.ofString type] ∧ read = looked.filter fun name => (cached name).isNone
  | .interfaces type =>
    looked = [.ofString type] ∧ read = looked.filter fun name => (cached name).isNone
  | .extendsClass type target =>
    SuperclassChain facts (.ofString type) (.ofString target) looked ∧
    (looked.length : ℕ∞) ≤ {name | (facts name).isSome}.encard + 1 ∧
    read = looked.filter fun name => (cached name).isNone
  | .implementsInterface type _ =>
    (∀ name ∈ read, cached name = none ∧
      (Extends facts (.ofString type) name ∨ Borders facts (.ofString type) name)) ∧
    ∀ name, read.count name ≤ 2 ∧
      (read.count name = 2 →
        Extends facts (.ofString type) name ∧ Borders facts (.ofString type) name)

/-! ### Reads of looks -/

/-- Looks that may read at these names lie between two states. -/
structure State.ReadsAlong (readers : Readers π κ ρ ω) (project : π) (first : State π κ ρ ω)
    (names : List TypeName) (events : List (Event π)) (state : State π κ ρ ω) : Prop
    extends State.Labelled readers state where
  /-- The events have been added. -/
  trace : state.trace = first.trace ++ events
  /-- What has been read has been looked up, in this order. -/
  sublist : ((readsOf readers (readers.key project) events).map Prod.fst).Sublist names
  /-- If no name was looked up twice, those without a fact have been read. -/
  whole : names.Nodup → (readsOf readers (readers.key project) events).map Prod.fst =
    names.filter fun name => (first.cached readers project name).isNone
  /-- Nothing has been learned of other names. -/
  spares : ∀ name, name ∉ names →
    state.cached readers project name = first.cached readers project name

namespace State.ReadsAlong

theorem refl (labelled : state.Labelled readers) (project : π) :
    ReadsAlong readers project state [] [] state :=
  ⟨labelled, by simp, by simp [readsOf], by simp [readsOf], fun _ _ => rfl⟩

/-- One more look. -/
theorem look (h : ReadsAlong readers project first names events state) (name : TypeName) :
    ∃ more, ReadsAlong readers project first (names ++ [name]) (events ++ more)
      (look readers .full project name state).2 := by
  obtain ⟨more, trace, read⟩ := h.toLabelled.reads_of_look .full project name
  have read : (readsOf readers (readers.key project) more).map Prod.fst =
      [name].filter fun name => (state.cached readers project name).isNone := by
    rw [read]
    cases known : state.cached readers project name <;> simp [known]
  refine ⟨more, preserves_labelled.look .full project name state h.toLabelled, ?_, ?_, ?_, ?_⟩
  · rw [trace, h.trace, List.append_assoc]
  · rw [readsOf_append, List.map_append, read]
    exact h.sublist.append List.filter_sublist
  · intro nodup
    obtain ⟨distinct, -, apart⟩ := List.nodup_append.mp nodup
    have fresh : name ∉ names := fun member => apart name member name (by simp) rfl
    rw [readsOf_append, List.map_append, h.whole distinct, read, List.filter_append,
      List.filter_singleton, List.filter_singleton, h.spares name fresh]
  · intro other absent
    have absent : other ∉ names ∧ other ≠ name := by simpa using absent
    rw [← h.spares other absent.1]
    cases known : state.cached readers project name with
    | some fact => rw [look_of_cached known, cached_lookCached]
    | none => rw [Engine.look, cached_lookFull_of_not_cached known, if_neg (by simp [absent.2])]

end State.ReadsAlong

/-- Between two states looks have been recorded, and the reads that they have led to. -/
def State.RecordsSince (readers : Readers π κ ρ ω) (project : π) (first : State π κ ρ ω)
    (before : List (Lookup (State π κ ρ ω)))
    (recording : State π κ ρ ω × List (Lookup (State π κ ρ ω))) : Prop :=
  ∃ since events, recording.2 = before ++ since ∧
    ReadsAlong readers project first (namesOf since) events recording.1

theorem State.RecordsSince.refl (labelled : state.Labelled readers) (project : π)
    (before : List (Lookup (State π κ ρ ω))) :
    RecordsSince readers project state before (state, before) :=
  ⟨[], [], (List.append_nil _).symm, .refl labelled project⟩

/-- Looks that may read add to what is recorded and to what is read. -/
theorem keeps_readsAlong (readers : Readers π κ ρ ω) (project : π) (first : State π κ ρ ω)
    (before : List (Lookup (State π κ ρ ω))) :
    Keeps (recordedLook readers project .full) (RecordsSince readers project first before) := by
  rintro name ⟨between, record⟩ ⟨since, events, added, reads⟩
  obtain ⟨more, reads'⟩ := reads.look name
  refine ⟨since ++ [⟨.full, name, between⟩], events ++ more, ?_, ?_⟩
  · exact (congrArg (· ++ _) added).trans (List.append_assoc ..)
  · rw [namesOf_append]
    exact reads'

variable (readers project) in
/-- Looks that may read remember the facts that they give, and what they do not give is not cached.
-/
theorem learns_look :
    Learns (look readers .full project) (fun _ => True)
      fun state => state.cached readers project where
  toRemembers := remembers_look readers .full project
  denies name state _ missing := by
    cases known : state.cached readers project name with
    | some fact => simp [look_of_cached known, lookCached_fst, known] at missing
    | none =>
      rw [look] at missing ⊢
      rw [cached_lookFull_of_not_cached known, if_pos ⟨rfl, rfl⟩, missing]

/-- Looks that give what the facts say learn these. -/
theorem Mirrors.learns {σ : Type} {look : Look σ} {inv : σ → Prop} {facts : Facts}
    (h : Mirrors look inv facts) : Learns look inv fun _ => facts where
  toRemembers := h.remembers
  denies name state valid missing := (h.mirrors name state valid).symm.trans missing

/-! ### Reads of answers -/

section Answers

variable {inv : State π κ ρ ω → Prop} {knows : State π κ ρ ω → Facts}

theorem economical_of_look (labelled : state.Labelled readers) (name : TypeName) :
    ∃ events, (look readers .full project name state).2.trace = state.trace ++ events ∧
      (readsOf readers (readers.key project) events).map Prod.fst =
        [name].filter fun name => (state.cached readers project name).isNone := by
  obtain ⟨events, reads⟩ := (ReadsAlong.refl labelled project).look name
  exact ⟨events, reads.trace, reads.whole (List.nodup_singleton name)⟩

theorem economical_of_climb (learns : Learns (look readers .full project) inv knows)
    (labelled : state.Labelled readers) (valid : inv state) {type target : String} {holds : Bool}
    (climbed : state.extendsClass readers project (.ofString type) (.ofString target) =
      some (holds, after)) :
    ∃ events, after.trace = state.trace ++ events ∧
      Economical (state.cached readers project) (knows after)
        (namesOf (state.lookups readers project (.extendsClass type target)))
        ((readsOf readers (readers.key project) events).map Prod.fst)
        (.extendsClass type target) := by
  obtain ⟨record, climbed'⟩ := exists_recorded_climb climbed []
  obtain ⟨since, added, chain⟩ := learns.chain_of_climb valid climbed'
  have recorded : RecordsSince readers project state [] (state, []) := .refl labelled project []
  obtain ⟨since', events, added', reads⟩ :=
    (keeps_readsAlong readers project state []).of_climbs recorded (.of_eq climbed')
  obtain rfl : record = since := added
  obtain rfl : record = since' := added'
  rw [lookups_of_climb climbed']
  exact ⟨events, reads.trace, chain, chain.length_le, reads.whole chain.once⟩

/-- What a pass that may read looks up is met and reached, and what it reads is looked up. -/
theorem reads_of_fullPass (learns : Learns (look readers .full project) inv knows)
    (labelled : state.Labelled readers) (valid : inv state) {type target : TypeName}
    {verdict : Verdict}
    (searched : searchPass readers .full project type target state = some (verdict, after)) :
    ∃ names met events, Met.Lists met names ∧ met.ReachedFrom (knows after) type ∧
      ReadsAlong readers project state names events after := by
  obtain ⟨record, searched'⟩ := exists_recorded_pass searched []
  obtain ⟨since, met, added, lists, reached⟩ :=
    learns.toRemembers.exists_met_of_pass valid searched'
  obtain ⟨met', course⟩ := SearchesClasses.of_eq searched'
  have recorded : RecordsSince readers project state [] (state, []) := .refl labelled project []
  obtain ⟨since', events, added', reads⟩ :=
    (keeps_readsAlong readers project state []).of_searchesClasses recorded course
  obtain rfl : record = since := added
  obtain rfl : record = since' := added'
  exact ⟨namesOf record, met, events, lists, reached, reads⟩

/-- What is read had no fact before. -/
theorem reads_unknown_of_fullPass (labelled : state.Labelled readers) {type target : TypeName}
    {verdict : Verdict}
    (searched : searchPass readers .full project type target state = some (verdict, after))
    (trace : after.trace = state.trace ++ events) :
    ∀ name ∈ (readsOf readers (readers.key project) events).map Prod.fst,
      state.cached readers project name = none := by
  obtain ⟨met, course⟩ := SearchesClasses.of_eq searched
  have keeps : Keeps (look readers .full project) (LearnedSince readers project state) :=
    (preserves_learnedSince project state).look .full project
  obtain ⟨events', trace', learned⟩ :=
    (keeps.of_searchesClasses (.refl labelled project) course).learned
  obtain rfl : events = events' := List.append_cancel_left (trace.symm.trans trace')
  exact fun name => learned.unknown_of_readsOf

theorem economical_of_passes (learns : Learns (look readers .full project) inv knows)
    (keeps : Keeps (look readers .cachedOnly project) inv) (labelled : state.Labelled readers)
    (valid : inv state) {type target : String} {holds : Bool}
    (searched : state.implementsInterface readers project (.ofString type) (.ofString target) =
      some (holds, after)) :
    ∃ events, after.trace = state.trace ++ events ∧
      Economical (state.cached readers project) (knows after)
        (namesOf (state.lookups readers project (.implementsInterface type target)))
        ((readsOf readers (readers.key project) events).map Prod.fst)
        (.implementsInterface type target) := by
  obtain ⟨⟨verdict, between⟩, cachedPass, rest⟩ := Option.bind_eq_some_iff.mp searched
  obtain ⟨met₁, course⟩ := SearchesClasses.of_eq cachedPass
  -- The first pass only asks the cache, so all reads are those of the second.
  have trace := (keeps_trace_lookCached readers project state.trace).of_searchesClasses rfl course
  cases verdict with
  | found | absent =>
    cases rest
    exact ⟨[], by rw [trace, List.append_nil], by simp [Economical, readsOf]⟩
  | inconclusive =>
    obtain ⟨⟨verdict, state₂⟩, fullPass, rest⟩ := Option.bind_eq_some_iff.mp rest
    cases rest
    have cached := (mirrors_lookCached project _).keeps.of_searchesClasses rfl course
    have labelled₁ :=
      (preserves_labelled.look .cachedOnly project).of_searchesClasses labelled course
    have valid₁ := keeps.of_searchesClasses valid course
    obtain ⟨names, met, events, lists, reached, reads⟩ :=
      reads_of_fullPass learns labelled₁ valid₁ fullPass
    have unknown := reads_unknown_of_fullPass labelled₁ fullPass reads.trace
    refine ⟨events, by rw [reads.trace, trace], fun name read => ?_, fun name => ?_⟩
    · refine ⟨cached ▸ unknown name read, ?_⟩
      rcases List.mem_append.mp (lists.perm.mem_iff.mp (reads.sublist.subset read)) with
        member | member
      · exact .inl (reached.classes name member)
      · exact .inr (reached.interfaces name member)
    · have fewer := reads.sublist.count_le name
      obtain ⟨few, both⟩ := lists.count_le name
      refine ⟨fewer.trans few, fun twice => ?_⟩
      obtain ⟨cls, interface⟩ := both (le_antisymm few (twice ▸ fewer))
      exact ⟨reached.classes name cls, reached.interfaces name interface⟩

/-- An answer costs no more than its question needs. -/
theorem economical_of_answer (learns : Learns (look readers .full project) inv knows)
    (keeps : Keeps (look readers .cachedOnly project) inv) (labelled : state.Labelled readers)
    (valid : inv state) {question : Question} {answer : Answer}
    (answered : state.answer readers project question = some (answer, after)) :
    ∃ events, after.trace = state.trace ++ events ∧
      Economical (state.cached readers project) (knows after)
        (namesOf (state.lookups readers project question))
        ((readsOf readers (readers.key project) events).map Prod.fst) question := by
  cases question with
  | superclass type | interfaces type =>
    cases answered
    obtain ⟨events, trace, read⟩ := economical_of_look labelled (.ofString type)
    exact ⟨events, trace, rfl, read⟩
  | extendsClass type target =>
    obtain ⟨⟨holds, state₁⟩, climbed, answered⟩ := Option.bind_eq_some_iff.mp answered
    cases answered
    exact economical_of_climb learns labelled valid climbed
  | implementsInterface type target =>
    obtain ⟨⟨holds, state₁⟩, searched, answered⟩ := Option.bind_eq_some_iff.mp answered
    cases answered
    exact economical_of_passes learns keeps labelled valid searched

end Answers

/-- What is read is what readers made for the project always answer. -/
theorem State.Told.answers_of_reads {facts : Facts}
    (tell : readers.TellFrom (readers.key project) facts) (told : state.Told readers)
    {question : Question} {answer : Answer}
    (answered : state.answer readers project question = some (answer, after)) :
    ∃ events, after.trace = state.trace ++ events ∧
      ∀ read ∈ readsOf readers (readers.key project) events, read.2 = facts read.1 := by
  have looks : ∀ pass, Keeps (look readers pass project) fun between =>
      between.Told readers ∧ ∃ events, between.trace = state.trace ++ events ∧
        ∀ read ∈ readsOf readers (readers.key project) events, read.2 = facts read.1 := by
    rintro pass name between ⟨told, events, trace, answers⟩
    obtain ⟨more, trace', reads⟩ := told.toLabelled.reads_of_look pass project name
    refine ⟨preserves_told.look pass project name between told, events ++ more, ?_, ?_⟩
    · rw [trace', trace, List.append_assoc]
    · rw [readsOf_append, reads]
      intro read member
      rcases List.mem_append.mp member with member | member
      · exact answers read member
      · split at member
        case isTrue asked =>
          obtain rfl := List.mem_singleton.mp member
          obtain ⟨rfl, -⟩ := asked
          exact (mirrors_told tell).mirrors name between told
        case isFalse => cases member
  exact (keeps_of_answer looks ⟨told, [], by simp, by simp [readsOf]⟩ answered).2

/-- What has a fact is read once at most if it is not read again once the fact has been given. -/
theorem count_le_one {reads : List (TypeName × Option Fact)} {facts : Facts} {name : TypeName}
    (once : reads.Pairwise fun earlier later => earlier.2.isSome → later.1 ≠ earlier.1)
    (answers : ∀ read ∈ reads, read.2 = facts read.1) (known : (facts name).isSome) :
    (reads.map Prod.fst).count name ≤ 1 := by
  induction reads with
  | nil => simp
  | cons read rest ih =>
    obtain ⟨apart, once⟩ := List.pairwise_cons.mp once
    rw [List.map_cons, List.count_cons]
    by_cases same : read.1 = name
    · have given : read.2.isSome := by rw [answers read (.head _), same, known]
      have absent : name ∉ rest.map Prod.fst := by
        rintro member
        obtain ⟨later, member, same'⟩ := List.mem_map.mp member
        exact apart later member given (same'.trans same.symm)
      simp [List.count_eq_zero_of_not_mem absent, same]
    · simpa [same] using ih once fun read member => answers read (.tail _ member)

/-- **Questions are answered, and economically.** In every state that the engine can come to,
whatever readers do: a question comes to an answer if they can tell of finitely many names from its
type on; the answer takes no more than the question needs, by what is cached at the end; and once a
reader has given a fact, its type is not read again. If the readers of the project always answer
from the same facts, the same is so by these facts, and what has a fact is read once at most. -/
theorem questions_answered_economically (reachable : Reachable readers state) (project : π)
    (question : Question) (cleanup : Bool) :
    ({name | readers.MayReach (readers.key project) (.ofString question.type) name}.Finite →
      ∃ answer after, state.ask readers project question cleanup = some (answer, after)) ∧
    ∀ answer after, state.ask readers project question cleanup = some (answer, after) →
      ∃ events, after.trace = state.trace ++ events ∧
        (∀ event ∈ events, readers.key event.project = readers.key project) ∧
        let looked := namesOf (state.lookups readers project question)
        let reads := readsOf readers (readers.key project) events
        (reads.Pairwise fun earlier later => earlier.2.isSome → later.1 ≠ earlier.1) ∧
        Economical (state.cached readers project) (after.cached readers project) looked
          (reads.map Prod.fst) question ∧
        ∀ facts, readers.TellFrom (readers.key project) facts →
          Economical (state.cached readers project) facts looked (reads.map Prod.fst) question ∧
          ∀ name, (facts name).isSome → (reads.map Prod.fst).count name ≤ 1 := by
  have told := reachable.told
  refine ⟨told.exists_ask question cleanup, ?_⟩
  intro answer after asked
  obtain ⟨events, touches⟩ := told.toLabelled.touches_ask asked
  refine ⟨events, touches.trace, touches.own, ?_⟩
  obtain ⟨⟨answer₁, between⟩, answered, asked⟩ := Option.bind_eq_some_iff.mp asked
  cases asked
  have since : LearnedSince readers project state between :=
    keeps_of_answer (fun pass => (preserves_learnedSince project state).look pass project)
      (.refl told.toLabelled project) answered
  obtain ⟨own, trace, learned⟩ := since.learned
  -- To release the reader afterwards adds events, but no reads.
  obtain ⟨more, trace', quiet⟩ :=
    exists_finish readers between (readers.key project) project cleanup
  have same : readsOf readers (readers.key project) events =
      readsOf readers (readers.key project) own := by
    obtain rfl : events = own ++ more := by
      refine List.append_cancel_left (touches.trace.symm.trans ?_)
      rw [trace', trace, List.append_assoc]
    rw [readsOf_append, quiet, List.append_nil]
  rw [same, cached_finish]
  refine ⟨learned.pairwise_readsOf, ?_, fun facts tell => ⟨?_, fun name known => ?_⟩⟩
  · obtain ⟨own', trace', economical⟩ := economical_of_answer (learns_look readers project)
      (fun _ _ _ => trivial) told.toLabelled trivial answered
    obtain rfl : own = own' := List.append_cancel_left (trace.symm.trans trace')
    exact economical
  · obtain ⟨own', trace', economical⟩ := economical_of_answer (mirrors_told tell).learns
      (preserves_told.look .cachedOnly project) told.toLabelled told answered
    obtain rfl : own = own' := List.append_cancel_left (trace.symm.trans trace')
    exact economical
  · obtain ⟨own', trace', answers⟩ := told.answers_of_reads tell answered
    obtain rfl : own = own' := List.append_cancel_left (trace.symm.trans trace')
    exact count_le_one learned.pairwise_readsOf answers known

/-- In the circles the class with a cached fact is not read again, and every other type with a fact
once at most. -/
theorem circles_answered_economically :
    ∃ answer after events,
      afterSuperclass.ask circles.readers "p" (.implementsInterface "a.Low" "a.Lost") true =
        some (answer, after) ∧
      after.trace = afterSuperclass.trace ++ events ∧
      let read := (readsOf circles.readers "p" events).map Prod.fst
      ⟨"a/High"⟩ ∉ read ∧ ∀ name, (circles.find? name).isSome → read.count name ≤ 1 := by
  have tell : circles.readers.TellFrom (circles.readers.key "p") circles.find? :=
    fun reader name world _ => answerFrom_readers circles reader name world
  obtain ⟨ends, cheap⟩ := questions_answered_economically reachable_afterSuperclass "p"
    (.implementsInterface "a.Low" "a.Lost") true
  obtain ⟨answer, after, asked⟩ := ends (finite_mayReach tell _)
  obtain ⟨events, trace, -, -, economical, once⟩ := cheap answer after asked
  refine ⟨answer, after, events, asked, trace, fun read => ?_, (once circles.find? tell).2⟩
  have unknown := (economical.1 _ read).1
  cases unknown

end TypeLineage.Engine
