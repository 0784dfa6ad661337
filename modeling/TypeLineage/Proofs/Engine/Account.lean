import TypeLineage.Proofs.Engine.Cleanup
import TypeLineage.Proofs.Engine.Isolation
import TypeLineage.Proofs.Engine.Lookups

/-!
# The account of a project

All that has happened to a project since it was last forgotten is told by a chronicle: the requests,
what has been looked up for them, and the events. The cache of the project accounts for it: for
every fact that a reader has given, for every look that has found a cached fact, and for every look
in the cache that has found none. A look that reads counts twice, since the cache is looked at once
more before the reader is asked; a look at the cache only counts once, if there is a cache at all.
-/

namespace TypeLineage.Engine

open Hierarchy Look State

variable {π κ ρ ω : Type} [DecidableEq κ]

/-! ### Counting lookups -/

/-- A look that finds a cached fact of the project. -/
def Lookup.isHit (readers : Readers π κ ρ ω) (project : π) (lookup : Lookup (State π κ ρ ω)) :
    Bool :=
  (lookup.state.cached readers project lookup.name).isSome

/-- A pass over the cache only that fails to find a fact there. -/
def Lookup.isFailure (readers : Readers π κ ρ ω) (project : π)
    (lookup : Lookup (State π κ ρ ω)) : Bool :=
  lookup.pass == .cachedOnly && !lookup.isHit readers project

/-- Such a failure while the project is known, which is counted. A project that is not known has no
cache to count it. -/
def Lookup.isMiss (readers : Readers π κ ρ ω) (project : π) (lookup : Lookup (State π κ ρ ω)) :
    Bool :=
  lookup.isFailure readers project && (lookup.state.memory readers project).isSome

/-- Such a failure while the project is not known. -/
def Lookup.isBlind (readers : Readers π κ ρ ω) (project : π) (lookup : Lookup (State π κ ρ ω)) :
    Bool :=
  lookup.isFailure readers project && !(lookup.state.memory readers project).isSome

/-- A failure is counted, or there is no cache to count it. -/
theorem countP_isFailure (readers : Readers π κ ρ ω) (project : π)
    (lookups : List (Lookup (State π κ ρ ω))) :
    lookups.countP (Lookup.isFailure readers project) =
      lookups.countP (Lookup.isMiss readers project) +
        lookups.countP (Lookup.isBlind readers project) := by
  induction lookups with
  | nil => rfl
  | cons lookup rest ih =>
    rw [List.countP_cons, List.countP_cons, List.countP_cons, ih, Lookup.isMiss, Lookup.isBlind]
    cases lookup.isFailure readers project <;>
      cases (lookup.state.memory readers project).isSome <;> simp <;> omega

/-- The cache of a project; an empty one if it is not known. -/
def State.cacheOf (readers : Readers π κ ρ ω) (state : State π κ ρ ω) (project : π) : Cache :=
  (state.memory readers project).elim {} Prod.snd

/-- The facts that have been given, with their types. -/
def givenOf (reads : List (TypeName × Option Fact)) : List (TypeName × Fact) :=
  reads.filterMap fun read => read.2.map (read.1, ·)

/-- A cache that accounts for the lookups and the reads. -/
structure Accounts (readers : Readers π κ ρ ω) (project : π)
    (lookups : List (Lookup (State π κ ρ ω))) (reads : List (TypeName × Option Fact))
    (cache : Cache) : Prop where
  /-- The facts that have been given are cached, in this order. -/
  entries : cache.entries = givenOf reads
  /-- Their types are distinct. -/
  nodup : (cache.entries.map Prod.fst).Nodup
  /-- The lookups that have found a fact are counted. -/
  hits : cache.hits = lookups.countP (Lookup.isHit readers project)
  /-- The lookups in vain are counted, twice if the type has then been read. -/
  misses : cache.misses = 2 * reads.length + lookups.countP (Lookup.isMiss readers project)

section Looks

variable {readers : Readers π κ ρ ω} {project other : π} {state state' : State π κ ρ ω}
  {lookups : List (Lookup (State π κ ρ ω))} {reads : List (TypeName × Option Fact)} {cache : Cache}
  {name : TypeName}

theorem Accounts.empty (readers : Readers π κ ρ ω) (project : π) :
    Accounts readers project [] [] {} := by
  constructor <;> simp [givenOf]

theorem find?_cacheOf :
    (state.cacheOf readers project).find? name = state.cached readers project name := by
  rw [cached_eq_memory, cacheOf]
  cases state.memory readers project <;> rfl

/-- A project with a cached fact is known. -/
theorem known_of_cached {fact : Fact} (known : state.cached readers project name = some fact) :
    (state.memory readers project).isSome := by
  rw [cached_eq_memory] at known
  obtain ⟨entry, memory, -⟩ := Option.bind_eq_some_iff.mp known
  rw [memory, Option.isSome_some]

theorem cache_contextOrNew :
    (state.contextOrNew readers project).cache = state.cacheOf readers project := by
  have same := congrArg Prod.snd (memory_contextOrNew readers state project)
  refine same.trans ?_
  rw [cacheOf]
  cases state.memory readers project <;> rfl

theorem cacheOf_congr (same : readers.key other = readers.key project) :
    state.cacheOf readers other = state.cacheOf readers project := by
  rw [cacheOf, cacheOf, memory_congr readers state same]

theorem isHit_congr (same : readers.key other = readers.key project)
    (lookup : Lookup (State π κ ρ ω)) :
    lookup.isHit readers other = lookup.isHit readers project := by
  rw [Lookup.isHit, Lookup.isHit, cached_congr lookup.state same]

theorem isFailure_congr (same : readers.key other = readers.key project)
    (lookup : Lookup (State π κ ρ ω)) :
    lookup.isFailure readers other = lookup.isFailure readers project := by
  rw [Lookup.isFailure, Lookup.isFailure, isHit_congr same]

/-- However the project is spelled, the account is the same. -/
theorem Accounts.congr (h : Accounts readers other lookups reads (state.cacheOf readers other))
    (same : readers.key other = readers.key project) :
    Accounts readers project lookups reads (state.cacheOf readers project) := by
  have hit : Lookup.isHit readers other = Lookup.isHit readers project := by
    funext lookup
    exact isHit_congr same lookup
  have miss : Lookup.isMiss readers other = Lookup.isMiss readers project := by
    funext lookup
    rw [Lookup.isMiss, Lookup.isMiss, isFailure_congr same, memory_congr readers lookup.state same]
  rw [← cacheOf_congr same]
  exact ⟨h.entries, h.nodup, hit ▸ h.hits, miss ▸ h.misses⟩

/-- A look at the cache only is counted if there is a cache. -/
theorem cacheOf_lookCached :
    (state.lookCached readers project name).2.cacheOf readers project =
      if (state.memory readers project).isSome then ((state.cacheOf readers project).get name).2
      else {} := by
  rw [cacheOf, memory_lookCached, cacheOf]
  cases state.memory readers project <;> rfl

/-- A look that reads is counted twice, and its fact is cached. -/
theorem memory_lookFull (unknown : state.cached readers project name = none) :
    (state.lookFull readers project name).2.memory readers project =
      some ((state.contextOrNew readers project).project,
        { state.cacheOf readers project with
          misses := (state.cacheOf readers project).misses + 2 }.learn name
          (state.lookFull readers project name).1) := by
  obtain ⟨made, written, reader, world, takes⟩ := exists_takes readers state project
  rcases read : readers.read reader name world with ⟨answer, reader', world'⟩
  rw [takes.lookFull unknown read, memory_of_memories (memories_setContext ..),
    ← cache_contextOrNew]
  rfl

namespace Accounts

/-- A fact is found. -/
theorem hit (h : Accounts readers project lookups reads (state.cacheOf readers project))
    {fact : Fact} (known : state.cached readers project name = some fact) (pass : Pass) :
    Accounts readers project (lookups ++ [⟨pass, name, state⟩]) reads
      ((look readers pass project name state).2.cacheOf readers project) := by
  have isHit : Lookup.isHit readers project ⟨pass, name, state⟩ = true := by
    simp [Lookup.isHit, known]
  have found := find?_cacheOf.trans known
  rw [look_of_cached known, cacheOf_lookCached, if_pos (known_of_cached known),
    Cache.get_of_find?_eq_some found]
  exact ⟨h.entries, h.nodup, by simp [h.hits, isHit],
    by simp [h.misses, Lookup.isMiss, Lookup.isFailure, isHit]⟩

/-- None is found, and none is read. -/
theorem miss (h : Accounts readers project lookups reads (state.cacheOf readers project))
    (unknown : state.cached readers project name = none) :
    Accounts readers project (lookups ++ [⟨.cachedOnly, name, state⟩]) reads
      ((state.lookCached readers project name).2.cacheOf readers project) := by
  have noHit : Lookup.isHit readers project ⟨.cachedOnly, name, state⟩ = false := by
    simp [Lookup.isHit, unknown]
  have missing := find?_cacheOf.trans unknown
  rw [cacheOf_lookCached]
  cases known : state.memory readers project with
  | none =>
    have empty : state.cacheOf readers project = {} := by rw [cacheOf, known, Option.elim_none]
    rw [empty] at h
    exact ⟨h.entries, h.nodup, by simp [← h.hits, noHit],
      by simp [← h.misses, Lookup.isMiss, known]⟩
  | some entry =>
    rw [Option.isSome_some, if_pos rfl, Cache.get_of_find?_eq_none missing]
    exact ⟨h.entries, h.nodup, by simp [h.hits, noHit],
      by simp [h.misses, Lookup.isMiss, Lookup.isFailure, known, noHit, Nat.add_assoc]⟩

/-- The type is read. -/
theorem read (h : Accounts readers project lookups reads (state.cacheOf readers project))
    (unknown : state.cached readers project name = none) :
    Accounts readers project (lookups ++ [⟨.full, name, state⟩])
      (reads ++ [(name, (state.lookFull readers project name).1)])
      ((state.lookFull readers project name).2.cacheOf readers project) := by
  have noHit : Lookup.isHit readers project ⟨.full, name, state⟩ = false := by
    simp [Lookup.isHit, unknown]
  have noMiss : Lookup.isMiss readers project ⟨.full, name, state⟩ = false := by
    simp [Lookup.isMiss, Lookup.isFailure]
  have missing := find?_cacheOf.trans unknown
  rw [cacheOf, memory_lookFull unknown, Option.elim_some]
  cases given : (state.lookFull readers project name).1 with
  | none =>
    refine ⟨?_, h.nodup, by simp [Cache.learn, h.hits, noHit], ?_⟩
    · simp [Cache.learn, h.entries, givenOf]
    · simp [Cache.learn, h.misses, noMiss]
      omega
  | some fact =>
    have put : ({ state.cacheOf readers project with
        misses := (state.cacheOf readers project).misses + 2 } : Cache).learn name (some fact) =
        { state.cacheOf readers project with
          misses := (state.cacheOf readers project).misses + 2
          entries := (state.cacheOf readers project).entries ++ [(name, fact)] } := by
      have missing' : Cache.find? { state.cacheOf readers project with
          misses := (state.cacheOf readers project).misses + 2 } name = none := missing
      simp [Cache.learn, Cache.put, missing']
    have fresh : name ∉ (state.cacheOf readers project).entries.map Prod.fst :=
      Cache.find?_eq_none_iff.mp missing
    rw [put]
    refine ⟨?_, ?_, by simp [h.hits, noHit], ?_⟩
    · simp [h.entries, givenOf]
    · simp only [List.map_append, List.map_cons, List.map_nil]
      exact List.nodup_append'.mpr ⟨h.nodup, List.nodup_singleton _, by simpa using fresh⟩
    · simp [h.misses, noMiss]
      omega

/-- A look at the project, in whatever spelling, is accounted for. -/
theorem look (h : Accounts readers project lookups reads (state.cacheOf readers project))
    (labelled : state.Labelled readers) (same : readers.key other = readers.key project)
    (pass : Pass) (name : TypeName) :
    ∃ events, (look readers pass other name state).2.trace = state.trace ++ events ∧
      Accounts readers project (lookups ++ [⟨pass, name, state⟩])
        (reads ++ readsOf readers (readers.key project) events)
        ((look readers pass other name state).2.cacheOf readers project) := by
  have own := h.congr same.symm
  obtain ⟨events, trace, read⟩ := labelled.reads_of_look pass other name
  refine ⟨events, trace, Accounts.congr ?_ same⟩
  rw [← same, read]
  cases known : state.cached readers other name with
  | some fact => simpa using own.hit known pass
  | none =>
    cases pass with
    | cachedOnly =>
      rw [if_neg (by simp), List.append_nil]
      exact own.miss known
    | full => exact own.read known

/-- So are all looks for an answer. -/
theorem answer (h : Accounts readers project lookups reads (state.cacheOf readers project))
    (labelled : state.Labelled readers) (same : readers.key other = readers.key project)
    {question : Question} {answer : Answer}
    (answered : state.answer readers other question = some (answer, state')) :
    ∃ events, state'.trace = state.trace ++ events ∧
      Accounts readers project (lookups ++ state.lookups readers other question)
        (reads ++ readsOf readers (readers.key project) events)
        (state'.cacheOf readers project) := by
  have looks : ∀ pass, Keeps (recordedLook readers other pass) fun recording =>
      recording.1.Labelled readers ∧
      ∃ events, recording.1.trace = state.trace ++ events ∧
        Accounts readers project (lookups ++ recording.2)
          (reads ++ readsOf readers (readers.key project) events)
          (recording.1.cacheOf readers project) := by
    rintro pass name ⟨between, record⟩ ⟨labelled', events, trace, accounts⟩
    obtain ⟨more, trace', accounts'⟩ := accounts.look labelled' same pass name
    refine ⟨preserves_labelled.look pass other name between labelled', events ++ more, ?_, ?_⟩
    · exact trace'.trans (by rw [trace, List.append_assoc])
    · rw [readsOf_append, ← List.append_assoc]
      rwa [List.append_assoc] at accounts'
  exact (keeps_lookups looks ⟨labelled, [], by simp, by simpa [readsOf] using h⟩ answered).2

end Accounts

end Looks

/-! ### Since a project was last forgotten -/

variable (readers : Readers π κ ρ ω) (key : κ)

/-- What is looked up for a request in the project with the key. -/
def State.lookupsFor (state : State π κ ρ ω) : Request π → List (Lookup (State π κ ρ ω))
  | .ask project question _ =>
    if readers.key project = key then state.lookups readers project question else []
  | _ => []

/-- What has happened since the project with the key was last forgotten, or since the engine
started: all requests, what was looked up for them in the project, and the events. Readers may
answer as they like, and the world may change between requests. -/
inductive Chronicle : List (Request π) → List (Lookup (State π κ ρ ω)) → List (Event π) →
    State π κ ρ ω → Prop where
  /-- The engine starts. -/
  | start (world : ω) : Chronicle [] [] [] (.start world)
  /-- The project is forgotten. -/
  | clear {requests : List (Request π)} {lookups : List (Lookup (State π κ ρ ω))}
      {events : List (Event π)} {state state' : State π κ ρ ω} {request : Request π}
      {answer? : Option Answer} (before : Chronicle requests lookups events state)
      (clears : request.Clears readers key)
      (performed : state.perform readers request = some (answer?, state')) :
      Chronicle [] [] [] state'
  /-- Something else is done. -/
  | perform {requests : List (Request π)} {lookups : List (Lookup (State π κ ρ ω))}
      {events more : List (Event π)} {state state' : State π κ ρ ω} {request : Request π}
      {answer? : Option Answer} (before : Chronicle requests lookups events state)
      (spares : ¬ request.Clears readers key)
      (performed : state.perform readers request = some (answer?, state'))
      (trace : state'.trace = state.trace ++ more) :
      Chronicle (requests ++ [request]) (lookups ++ state.lookupsFor readers key request)
        (events ++ more) state'
  /-- The world changes. -/
  | drift {requests : List (Request π)} {lookups : List (Lookup (State π κ ρ ω))}
      {events : List (Event π)} {state : State π κ ρ ω}
      (before : Chronicle requests lookups events state) (world : ω) :
      Chronicle requests lookups events { state with world }

variable {readers key} {project : π} {requests : List (Request π)}
  {lookups : List (Lookup (State π κ ρ ω))} {events : List (Event π)} {state state' : State π κ ρ ω}

theorem Chronicle.labelled (h : Chronicle readers key requests lookups events state) :
    state.Labelled readers := by
  induction h with
  | start world => exact .start world
  | clear _ _ performed ih => exact preserves_labelled.upholds.perform ih trivial performed
  | perform _ _ performed _ ih => exact preserves_labelled.upholds.perform ih trivial performed
  | drift _ world ih => exact preserves_labelled.drift _ world ih

/-- A request that does not forget the project is work on one project, be it this or another. -/
theorem State.Labelled.exists_touches (h : state.Labelled readers) {request : Request π}
    (spares : ¬ request.Clears readers key) {answer? : Option Answer}
    (performed : state.perform readers request = some (answer?, state')) :
    ∃ other events, request.AddressedTo readers (readers.key other) ∧
      Touches readers other state state' events := by
  have addressed : ∃ other, request.AddressedTo readers (readers.key other) := by
    cases request with
    | ask other | cleanup other | clear other => exact ⟨other, rfl⟩
    | clearAll => exact absurd trivial spares
  obtain ⟨other, addressed⟩ := addressed
  obtain ⟨events, touches⟩ := h.touches_perform addressed performed
  exact ⟨other, events, addressed, touches⟩

/-- There is a chronicle of every state that the engine can come to. -/
theorem Reachable.exists_chronicle (reachable : Reachable readers state) (key : κ) :
    ∃ requests lookups events, Chronicle readers key requests lookups events state := by
  obtain ⟨world, steps⟩ := reachable
  induction steps with
  | refl => exact ⟨[], [], [], .start world⟩
  | tail _ step ih =>
    obtain ⟨requests, lookups, events, before⟩ := ih
    cases step with
    | @perform _ request _ _ performed =>
      by_cases clears : request.Clears readers key
      · exact ⟨_, _, _, .clear before clears performed⟩
      · obtain ⟨other, more, -, touches⟩ := before.labelled.exists_touches clears performed
        exact ⟨_, _, _, .perform before clears performed touches.trace⟩
    | drift world' => exact ⟨_, _, _, .drift before world'⟩

theorem memory_finish (other : π) (cleanup : Bool) :
    (state.finish readers other cleanup).memory readers project = state.memory readers project := by
  unfold finish
  split
  · rw [memory_cleanup]
  · rfl

/-- A request that is addressed to the project is accounted for. -/
theorem Accounts.perform
    (h : Accounts readers project lookups reads (state.cacheOf readers project))
    (labelled : state.Labelled readers) {request : Request π}
    (addressed : request.AddressedTo readers (readers.key project))
    (spares : ¬ request.Clears readers (readers.key project)) {answer? : Option Answer}
    (performed : state.perform readers request = some (answer?, state')) :
    ∃ more, state'.trace = state.trace ++ more ∧
      Accounts readers project
        (lookups ++ state.lookupsFor readers (readers.key project) request)
        (reads ++ readsOf readers (readers.key project) more) (state'.cacheOf readers project) := by
  cases request with
  | ask other question cleanup =>
    obtain ⟨⟨answer, state₁⟩, asked, performed⟩ := Option.bind_eq_some_iff.mp performed
    cases performed
    obtain ⟨⟨answer₁, between⟩, answered, asked⟩ := Option.bind_eq_some_iff.mp asked
    cases asked
    obtain ⟨events, trace, accounts⟩ := h.answer labelled addressed answered
    obtain ⟨more, trace', quiet⟩ := exists_finish readers between (readers.key project) other cleanup
    have own : readers.key other = readers.key project := addressed
    refine ⟨events ++ more, by rw [trace', trace, List.append_assoc], ?_⟩
    rw [lookupsFor, if_pos own, readsOf_append, quiet, List.append_nil, cacheOf, memory_finish]
    exact accounts
  | cleanup other =>
    cases performed
    obtain ⟨more, trace, quiet⟩ := exists_finish readers state (readers.key project) other true
    have nothing : state.lookupsFor readers (readers.key project) (.cleanup other) = [] := rfl
    refine ⟨more, trace, ?_⟩
    rw [nothing, quiet, List.append_nil, List.append_nil, cacheOf, memory_cleanup]
    exact h
  | clear other => exact absurd addressed spares
  | clearAll => exact absurd addressed id

/-- **The cache accounts for all that is in the chronicle.** -/
theorem Chronicle.accounts
    (h : Chronicle readers (readers.key project) requests lookups events state) :
    Accounts readers project lookups (readsOf readers (readers.key project) events)
      (state.cacheOf readers project) := by
  induction h with
  | start world => exact .empty readers project
  | clear before clears performed =>
    have gone := (before.labelled.forgotten clears performed).1
    rw [cacheOf, gone]
    exact .empty readers project
  | @perform requests lookups events more state state' request answer? before spares performed trace
      ih =>
    rw [readsOf_append]
    by_cases addressed : request.AddressedTo readers (readers.key project)
    · obtain ⟨own, trace', accounts⟩ := ih.perform before.labelled addressed spares performed
      obtain rfl : more = own := List.append_cancel_left (trace.symm.trans trace')
      exact accounts
    · obtain ⟨other, differs, addressed'⟩ := Request.exists_other spares addressed
      obtain ⟨own, touches⟩ := before.labelled.touches_perform addressed' performed
      obtain rfl : more = own := List.append_cancel_left (trace.symm.trans touches.trace)
      have silent : readsOf readers (readers.key project) more = [] := by
        refine readsOf_of_silent ?_
        intro event member name asks
        exact differs ((touches.own event member).symm.trans asks.key_project)
      have nothing : state.lookupsFor readers (readers.key project) request = [] := by
        cases request with
        | ask written => exact if_neg addressed
        | cleanup | clear | clearAll => rfl
      rw [silent, nothing, List.append_nil, List.append_nil, cacheOf, touches.memory differs.symm]
      exact ih
  | drift before world ih => exact ih

/-! ### Which projects are known -/

/-- The question is answered without a look at anything: whether a type extends itself. -/
def Question.IsIdle : Question → Prop
  | .extendsClass type target => TypeName.ofString type = .ofString target
  | _ => False

/-- A project is known after a look if it was known before, or if the look could read. -/
theorem known_look (pass : Pass) (name : TypeName) :
    ((look readers pass project name state).2.memory readers project).isSome ↔
      (state.memory readers project).isSome ∨ pass = .full := by
  cases known : state.cached readers project name with
  | some fact =>
    rw [look_of_cached known, memory_lookCached, Option.isSome_map]
    simp [known_of_cached known]
  | none =>
    cases pass with
    | cachedOnly =>
      rw [look, memory_lookCached, Option.isSome_map]
      simp
    | full => simp [look, memory_lookFull known]

variable (readers project) in
theorem keeps_known (pass : Pass) :
    Keeps (look readers pass project) fun state => (state.memory readers project).isSome :=
  fun name _ known => (known_look pass name).mpr (.inl known)

/-- A pass that may read makes the project known. -/
theorem known_of_fullPass {name target : TypeName} {verdict : Verdict}
    (searched : searchPass readers .full project name target state = some (verdict, state')) :
    (state'.memory readers project).isSome := by
  obtain ⟨met, course⟩ := SearchesClasses.of_eq searched
  have first : ((look readers .full project name state).2.memory readers project).isSome :=
    (known_look .full name).mpr (.inr rfl)
  have keeps := keeps_known readers project .full
  cases course with
  | again member => cases member
  | unknown _ looked => rwa [looked] at first
  | found _ looked searched =>
    rw [looked] at first
    exact keeps.of_searchesInterfaces first searched
  | next _ looked searched rest =>
    rw [looked] at first
    exact keeps.of_searchesClasses (keeps.of_searchesInterfaces first searched) rest

/-- A pass over the cache of an unknown project decides nothing. -/
theorem inconclusive_of_unknown {name target : TypeName} {verdict : Verdict}
    (unknown : state.memory readers project = none)
    (searched : searchPass readers .cachedOnly project name target state = some (verdict, state')) :
    verdict = .inconclusive := by
  obtain ⟨met, course⟩ := SearchesClasses.of_eq searched
  have nothing : (look readers .cachedOnly project name state).1 = none := by
    rw [look, lookCached_fst, cached_eq_memory, unknown, Option.bind_none]
  cases course with
  | again member => cases member
  | unknown _ looked => rfl
  | found _ looked _ | next _ looked _ _ =>
    rw [looked] at nothing
    cases nothing

/-- A climb makes the project known unless it is over at once. -/
theorem known_of_climb {name target : TypeName} {holds : Bool}
    (climbed : climb (look readers .full project) target (some name) [] state =
      some (holds, state')) :
    (state'.memory readers project).isSome ↔
      (state.memory readers project).isSome ∨ name ≠ target := by
  have first : ((look readers .full project name state).2.memory readers project).isSome :=
    (known_look .full name).mpr (.inr rfl)
  cases Climbs.of_eq climbed with
  | here => simp
  | again _ member => cases member
  | unknown other _ looked =>
    rw [looked] at first
    simp [first, other]
  | next other _ looked rest =>
    rw [looked] at first
    have known := (keeps_known readers project .full).of_climbs first rest
    simp [known, other]

/-- A project is known after an answer if it was known before, or if something has been looked up. -/
theorem known_answer {question : Question} {answer : Answer}
    (answered : state.answer readers project question = some (answer, state')) :
    (state'.memory readers project).isSome ↔
      (state.memory readers project).isSome ∨ ¬ question.IsIdle := by
  cases question with
  | superclass type | interfaces type =>
    cases answered
    exact (known_look .full _).trans (by simp [Question.IsIdle])
  | extendsClass type target =>
    obtain ⟨⟨holds, state₁⟩, climbed, answered⟩ := Option.bind_eq_some_iff.mp answered
    cases answered
    exact known_of_climb climbed
  | implementsInterface type target =>
    obtain ⟨⟨holds, state₁⟩, searched, answered⟩ := Option.bind_eq_some_iff.mp answered
    cases answered
    obtain ⟨⟨verdict, state₁⟩, cachedPass, rest⟩ := Option.bind_eq_some_iff.mp searched
    have known : (state'.memory readers project).isSome := by
      cases verdict with
      | found | absent =>
        cases rest
        obtain ⟨met, course⟩ := SearchesClasses.of_eq cachedPass
        cases before : state.memory readers project with
        | none => cases inconclusive_of_unknown before cachedPass
        | some entry =>
          exact (keeps_known readers project .cachedOnly).of_searchesClasses (by simp [before]) course
      | inconclusive =>
        obtain ⟨⟨verdict, state₂⟩, fullPass, rest⟩ := Option.bind_eq_some_iff.mp rest
        cases rest
        exact known_of_fullPass fullPass
    simp [known, Question.IsIdle]

/-- A request makes a project known just if something is looked up in it. -/
theorem State.Labelled.known_perform (labelled : state.Labelled readers) {request : Request π}
    (spares : ¬ request.Clears readers (readers.key project)) {answer? : Option Answer}
    (performed : state.perform readers request = some (answer?, state')) :
    (state'.memory readers project).isSome ↔
      (state.memory readers project).isSome ∨ ∃ other question cleanup,
        request = .ask other question cleanup ∧ readers.key other = readers.key project ∧
          ¬ question.IsIdle := by
  by_cases addressed : request.AddressedTo readers (readers.key project)
  · cases request with
    | ask other question cleanup =>
      obtain ⟨⟨answer, state₁⟩, asked, performed⟩ := Option.bind_eq_some_iff.mp performed
      cases performed
      obtain ⟨⟨answer₁, between⟩, answered, asked⟩ := Option.bind_eq_some_iff.mp asked
      cases asked
      have own : readers.key other = readers.key project := addressed
      rw [memory_finish, ← memory_congr readers between own, ← memory_congr readers state own,
        known_answer answered]
      simp [own]
    | cleanup other =>
      cases performed
      simp
    | clear other => exact absurd addressed spares
    | clearAll => exact absurd addressed id
  · obtain ⟨other, differs, addressed'⟩ := Request.exists_other spares addressed
    obtain ⟨own, touches⟩ := labelled.touches_perform addressed' performed
    rw [touches.memory differs.symm]
    have elsewhere : ¬ ∃ other question cleanup, request = .ask other question cleanup ∧
        readers.key other = readers.key project ∧ ¬ question.IsIdle := by
      rintro ⟨other, question, cleanup, rfl, same, -⟩
      exact addressed same
    exact ⟨.inl, fun known => known.elim id fun asked => absurd asked elsewhere⟩

/-- A project is known if something has been looked up in it since it was last forgotten. -/
theorem Chronicle.known_iff
    (h : Chronicle readers (readers.key project) requests lookups events state) :
    (state.memory readers project).isSome ↔
      ∃ other question cleanup, .ask other question cleanup ∈ requests ∧
        readers.key other = readers.key project ∧ ¬ question.IsIdle := by
  induction h with
  | start world => simp [State.memory, context?, State.start]
  | clear before clears performed => simp [(before.labelled.forgotten clears performed).1]
  | @perform _ _ _ _ _ _ request _ before spares performed trace ih =>
    rw [before.labelled.known_perform spares performed, ih]
    simp only [List.mem_append, List.mem_singleton, or_and_right, exists_or,
      @eq_comm _ (Request.ask _ _ _) request]
  | drift before world ih => exact ih

end TypeLineage.Engine
