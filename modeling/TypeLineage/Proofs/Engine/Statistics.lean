import TypeLineage.Proofs.Engine.Account

/-!
# What the statistics tell

The statistics of a project account for what has happened since it was last forgotten: for every
fact that a reader has given, for every look that has found a cached fact, and for every look in the
cache that has found none. A look that reads counts twice, since the cache is looked at once more
before the reader is asked. A look at the cache only counts once if the project is known; where it
is not, there is no cache to count the look. That happens once at most, for the first look of the
question that makes the project known. A project that is not known has no statistics.
-/

namespace TypeLineage.Engine

open Look State

variable {π κ ρ ω : Type} [DecidableEq κ] {readers : Readers π κ ρ ω} {project other : π}
  {requests : List (Request π)} {lookups : List (Lookup (State π κ ρ ω))} {events : List (Event π)}
  {state state' : State π κ ρ ω} {question : Question} {answer : Answer}

/-! ### Which passes look -/

variable (readers project) in
/-- Looks of a pass that may read add only such looks to a record. -/
theorem keeps_full (before : List (Lookup (State π κ ρ ω))) :
    Keeps (recordedLook readers project .full) fun recording =>
      ∃ more, recording.2 = before ++ more ∧ ∀ lookup ∈ more, lookup.pass = .full := by
  rintro name ⟨between, record⟩ ⟨more, rfl, full⟩
  refine ⟨more ++ [⟨.full, name, between⟩], ?_, fun lookup member => ?_⟩
  · exact List.append_assoc before more [⟨.full, name, between⟩]
  · rcases List.mem_append.mp member with member | member
    · exact full lookup member
    · obtain rfl := List.mem_singleton.mp member
      rfl

/-- Only a question about an interface is answered by looks at the cache only. -/
theorem full_of_lookups (other : ∀ type target, question ≠ .implementsInterface type target) :
    ∀ lookup ∈ state.lookups readers project question, lookup.pass = .full := by
  cases question with
  | superclass type | interfaces type => simp [lookups]
  | extendsClass type target =>
    rw [lookups]
    cases climbed : climb (recordedLook readers project .full) (.ofString target)
        (some (.ofString type)) [] (state, []) with
    | none => simp [recordOf]
    | some ended =>
      obtain ⟨more, same, full⟩ :=
        (keeps_full readers project []).of_climbs ⟨[], rfl, by simp⟩ (.of_eq climbed)
      rw [List.nil_append] at same
      rw [recordOf, Option.elim_some, same]
      exact full
  | implementsInterface type target => exact absurd rfl (other type target)

/-- Passes that may read do not fail: what is not cached is read. -/
theorem countP_isFailure_of_full (full : ∀ lookup ∈ lookups, lookup.pass = .full) :
    lookups.countP (Lookup.isFailure readers project) = 0 := by
  refine List.countP_eq_zero.mpr fun lookup member => ?_
  simp [Lookup.isFailure, full lookup member]

/-- Where no question about an interface has been asked, nothing has been looked up in vain. -/
theorem Chronicle.countP_isFailure_eq_zero
    (h : Chronicle readers (readers.key project) requests lookups events state)
    (none_asked : ∀ other type target cleanup,
      .ask other (.implementsInterface type target) cleanup ∈ requests →
        readers.key other ≠ readers.key project) :
    lookups.countP (Lookup.isFailure readers project) = 0 := by
  apply countP_isFailure_of_full
  induction h with
  | start | clear => simp
  | @perform requests lookups events more state state' request answer? before spares performed
      trace ih =>
    intro lookup member
    rcases List.mem_append.mp member with member | member
    · refine ih (fun other type target cleanup asked => ?_) lookup member
      exact none_asked other type target cleanup (List.mem_append_left _ asked)
    · cases request with
      | ask other question cleanup =>
        have own : readers.key other = readers.key project := by
          by_contra differs
          rw [lookupsFor, if_neg differs] at member
          cases member
        rw [lookupsFor, if_pos own] at member
        refine full_of_lookups (fun type target same => ?_) lookup member
        refine none_asked other type target cleanup ?_ own
        exact same ▸ List.mem_append_right _ (List.mem_singleton_self _)
      | cleanup | clear | clearAll => cases member
  | drift before world ih => exact ih none_asked

/-! ### Looks at a cache that is not there -/

instance : DecidablePred Question.IsIdle := fun question =>
  match question with
  | .extendsClass type target =>
    inferInstanceAs (Decidable (TypeName.ofString type = .ofString target))
  | .superclass _ | .interfaces _ | .implementsInterface _ _ => isFalse id

/-- How many looks for a question are blind if the project is not known: the first one, if the cache
alone is looked at first. -/
def Question.blindLooks : Question → Nat
  | .implementsInterface _ _ => 1
  | .superclass _ | .interfaces _ | .extendsClass _ _ => 0

/-- The question that a request puts to the project with the key, unless it is answered without a
look. -/
def Request.question? (readers : Readers π κ ρ ω) (key : κ) : Request π → Option Question
  | .ask project question _ =>
    if readers.key project = key ∧ ¬ question.IsIdle then some question else none
  | .cleanup _ | .clear _ | .clearAll => none

/-- The question that makes a project known: the first that is put to it and needs a look. -/
def firstQuestion? (readers : Readers π κ ρ ω) (key : κ) (requests : List (Request π)) :
    Option Question :=
  requests.findSome? (Request.question? readers key)

theorem Question.blindLooks_of_isIdle (idle : question.IsIdle) : question.blindLooks = 0 := by
  cases question with
  | extendsClass => rfl
  | superclass | interfaces | implementsInterface => cases idle

theorem isBlind_congr (same : readers.key other = readers.key project)
    (lookup : Lookup (State π κ ρ ω)) :
    lookup.isBlind readers other = lookup.isBlind readers project := by
  rw [Lookup.isBlind, Lookup.isBlind, isFailure_congr same,
    memory_congr readers lookup.state same]

theorem countP_isBlind_of_full (full : ∀ lookup ∈ lookups, lookup.pass = .full) :
    lookups.countP (Lookup.isBlind readers project) = 0 := by
  have split := countP_isFailure readers project lookups
  rw [countP_isFailure_of_full full] at split
  omega

/-- In a project that is known no look for an answer is blind. -/
theorem countP_isBlind_of_known (known : (state.memory readers project).isSome)
    (answered : state.answer readers project question = some (answer, state')) :
    (state.lookups readers project question).countP (Lookup.isBlind readers project) = 0 := by
  have looks : ∀ pass, Keeps (recordedLook readers project pass) fun recording =>
      (recording.1.memory readers project).isSome ∧
        ∀ lookup ∈ recording.2, (lookup.state.memory readers project).isSome := by
    rintro pass name ⟨between, record⟩ ⟨known, seen⟩
    refine ⟨keeps_known readers project pass name between known, fun lookup member => ?_⟩
    rcases List.mem_append.mp member with member | member
    · exact seen lookup member
    · obtain rfl := List.mem_singleton.mp member
      exact known
  have seen := (keeps_lookups looks ⟨known, by simp⟩ answered).2
  refine List.countP_eq_zero.mpr fun lookup member => ?_
  simp [Lookup.isBlind, seen lookup member]

/-- In a project that is not known, a pass over the cache only gives up after one look. -/
theorem record_of_unknown {name target : TypeName} {verdict : Verdict}
    {record : List (Lookup (State π κ ρ ω))} (unknown : state.memory readers project = none)
    (searched : searchClasses (recordedLook readers project .cachedOnly) .cachedOnly target
      (some name) {} (state, []) = some (verdict, state', record)) :
    record = [⟨.cachedOnly, name, state⟩] := by
  obtain ⟨met, course⟩ := SearchesClasses.of_eq searched
  have nothing : (recordedLook readers project .cachedOnly name (state, [])).1 = none := by
    simp [recordedLook, Look.recorded, look, lookCached_fst, cached_eq_memory, unknown]
  cases course with
  | again member => cases member
  | unknown _ looked => exact record_of_look looked
  | found _ looked _ | next _ looked _ _ =>
    rw [looked] at nothing
    cases nothing

/-- In a project that is not known, the first look for an answer is blind if the cache alone is
looked at first, and no other look is. -/
theorem countP_isBlind_of_unknown (unknown : state.memory readers project = none)
    (answered : state.answer readers project question = some (answer, state')) :
    (state.lookups readers project question).countP (Lookup.isBlind readers project) =
      question.blindLooks := by
  cases question with
  | superclass | interfaces | extendsClass =>
    exact countP_isBlind_of_full (full_of_lookups (by simp))
  | implementsInterface type target =>
    obtain ⟨⟨holds, state₁⟩, searched, answered⟩ := Option.bind_eq_some_iff.mp answered
    cases answered
    obtain ⟨⟨verdict, state₁⟩, cachedPass, rest⟩ := Option.bind_eq_some_iff.mp searched
    obtain rfl := inconclusive_of_unknown unknown cachedPass
    obtain ⟨⟨verdict, state₂⟩, fullPass, rest⟩ := Option.bind_eq_some_iff.mp rest
    cases rest
    obtain ⟨record, cachedPass'⟩ := exists_recorded_pass cachedPass []
    obtain ⟨record', fullPass'⟩ := exists_recorded_pass fullPass record
    obtain ⟨met, course⟩ := SearchesClasses.of_eq fullPass'
    obtain ⟨more, rfl, full⟩ := (keeps_full readers project record).of_searchesClasses
      ⟨[], by simp, by simp⟩ course
    have blind : Lookup.isBlind readers project ⟨.cachedOnly, .ofString type, state⟩ = true := by
      simp [Lookup.isBlind, Lookup.isFailure, Lookup.isHit, cached_eq_memory, unknown]
    rw [lookups_of_inconclusive cachedPass' fullPass', record_of_unknown unknown cachedPass',
      List.countP_append, countP_isBlind_of_full full, List.countP_singleton, if_pos blind]
    rfl

/-- A project is known exactly if some question has made it known. -/
theorem Chronicle.known_iff_firstQuestion?
    (h : Chronicle readers (readers.key project) requests lookups events state) :
    (state.memory readers project).isSome ↔
      (firstQuestion? readers (readers.key project) requests).isSome := by
  rw [h.known_iff, firstQuestion?, List.findSome?_isSome_iff]
  constructor
  · rintro ⟨other, question, cleanup, asked, same, busy⟩
    exact ⟨_, asked, by simp [Request.question?, same, busy]⟩
  · rintro ⟨request, asked, put⟩
    cases request with
    | ask other question cleanup =>
      have put' : readers.key other = readers.key project ∧ ¬ question.IsIdle := by
        by_contra absent
        simp [Request.question?, if_neg absent] at put
      exact ⟨other, question, cleanup, asked, put'⟩
    | cleanup | clear | clearAll => cases put

/-- Of the looks for a request none is blind, but for the first look for a question about an
interface that is put to the project while it is not known. -/
theorem countP_isBlind_lookupsFor {request : Request π} {answer? : Option Answer}
    (performed : state.perform readers request = some (answer?, state')) :
    (state.lookupsFor readers (readers.key project) request).countP
        (Lookup.isBlind readers project) =
      if (state.memory readers project).isSome then 0
      else (request.question? readers (readers.key project)).elim 0 Question.blindLooks := by
  cases request with
  | ask other question cleanup =>
    obtain ⟨⟨answer, state₁⟩, asked, performed⟩ := Option.bind_eq_some_iff.mp performed
    cases performed
    obtain ⟨⟨answer₁, between⟩, answered, asked⟩ := Option.bind_eq_some_iff.mp asked
    cases asked
    by_cases same : readers.key other = readers.key project
    · have alike : Lookup.isBlind readers project = Lookup.isBlind readers other := by
        funext lookup
        exact (isBlind_congr same lookup).symm
      rw [lookupsFor, if_pos same, alike, ← memory_congr readers state same]
      cases known : state.memory readers other with
      | some entry =>
        rw [countP_isBlind_of_known (by simp [known]) answered]
        simp
      | none =>
        rw [countP_isBlind_of_unknown known answered]
        by_cases idle : question.IsIdle
        · simp [Request.question?, idle, Question.blindLooks_of_isIdle idle]
        · simp [Request.question?, idle, same]
    · simp [lookupsFor, Request.question?, same]
  | cleanup | clear | clearAll => simp [lookupsFor, Request.question?]

/-- **At most one look is blind**: one if the question that has made the project known is about an
interface, and none otherwise. -/
theorem Chronicle.countP_isBlind
    (h : Chronicle readers (readers.key project) requests lookups events state) :
    lookups.countP (Lookup.isBlind readers project) =
      (firstQuestion? readers (readers.key project) requests).elim 0 Question.blindLooks := by
  induction h with
  | start | clear => rfl
  | @perform requests lookups events more state state' request answer? before spares performed
      trace ih =>
    have known := before.known_iff_firstQuestion?
    have first : firstQuestion? readers (readers.key project) (requests ++ [request]) =
        (firstQuestion? readers (readers.key project) requests).or
          (request.question? readers (readers.key project)) := by
      simp [firstQuestion?, List.findSome?_append]
    rw [List.countP_append, ih, countP_isBlind_lookupsFor performed, first]
    cases made : firstQuestion? readers (readers.key project) requests with
    | some question =>
      rw [if_pos (known.mpr (by simp [made])), Option.some_or]
      rfl
    | none =>
      rw [if_neg (by simp [known, made]), Option.none_or, Option.elim_none, Nat.zero_add]
  | drift before world ih => exact ih

/-! ### The statistics -/

/-- A project is remembered if one spelling of it or another is known. -/
theorem State.Indexed.isSome_memory_iff (h : state.Indexed readers) :
    (state.memory readers project).isSome ↔
      ∃ other ∈ state.knownProjects, readers.key other = readers.key project := by
  constructor
  · intro known
    rcases h.known_of_memory project with unknown | spelled
    · simp [unknown] at known
    · exact spelled
  · rintro ⟨other, member, same⟩
    obtain ⟨entry, member', rfl⟩ := List.mem_map.mp member
    by_contra unknown
    rw [Option.not_isSome_iff_eq_none, State.memory, Option.map_eq_none_iff] at unknown
    have differs := List.lookup_eq_none_iff.mp unknown entry member'
    exact bne_iff_ne.mp differs (same ▸ h.key entry member')

/-- There are no statistics of a project exactly if it is not known. -/
theorem stats_eq_none_iff :
    state.stats readers project = none ↔ ¬ (state.memory readers project).isSome := by
  rw [stats_eq_memory, Option.map_eq_none_iff, Option.not_isSome_iff_eq_none]

theorem map_fst_givenOf (reads : List (TypeName × Option Fact)) :
    (givenOf reads).map Prod.fst = (reads.filter (·.2.isSome)).map Prod.fst := by
  induction reads with
  | nil => rfl
  | cons read rest ih =>
    rcases read with ⟨name, _ | fact⟩
    · simpa [givenOf] using ih
    · simpa [givenOf] using ih

/-- As many facts are cached as have been given, each for another type. -/
theorem Accounts.given {reads : List (TypeName × Option Fact)} {cache : Cache}
    (h : Accounts readers project lookups reads cache) :
    cache.size = (reads.filter (·.2.isSome)).length ∧
      ((reads.filter (·.2.isSome)).map Prod.fst).Nodup := by
  have names : cache.entries.map Prod.fst = (reads.filter (·.2.isSome)).map Prod.fst := by
    rw [h.entries, map_fst_givenOf]
  refine ⟨?_, names ▸ h.nodup⟩
  have length := congrArg List.length names
  rw [List.length_map, List.length_map] at length
  exact length

/-- **The statistics account for all that has happened** since the project was last forgotten, and
all that has happened in any run is told by a chronicle. There are none, and the project is not
known, if it has only been asked whether types extend themselves. Else as many facts are cached as
readers have given, each for another type; every read is missed twice, and every look of a pass over
the cache that fails in a known project is missed once; and every look that finds a cached fact is a
hit. Such a look fails in an unknown project once, if the question that has made it known is about
an interface, and never otherwise. To have readers released changes none of these numbers. -/
theorem statistics_of_chronicle (reachable : Reachable readers state) (project : π) :
    (∃ requests lookups events,
      Chronicle readers (readers.key project) requests lookups events state) ∧
    ∀ requests lookups events,
      Chronicle readers (readers.key project) requests lookups events state →
      let Asked question := ∃ other cleanup,
        .ask other question cleanup ∈ requests ∧ readers.key other = readers.key project
      let reads := readsOf readers (readers.key project) events
      let given := reads.filter (·.2.isSome)
      (state.stats readers project = none ↔ ∀ question, Asked question → question.IsIdle) ∧
      (state.stats readers project = none ↔
        ∀ other ∈ state.knownProjects, readers.key other ≠ readers.key project) ∧
      (∀ stats, state.stats readers project = some stats →
        (stats.cached = given.length ∧ (given.map Prod.fst).Nodup) ∧
        stats.misses = 2 * reads.length + lookups.countP (Lookup.isMiss readers project) ∧
        lookups.countP (Lookup.isFailure readers project) =
          lookups.countP (Lookup.isMiss readers project) +
            (firstQuestion? readers (readers.key project) requests).elim 0 Question.blindLooks ∧
        ((∀ type target, ¬ Asked (.implementsInterface type target)) →
          stats.misses = 2 * reads.length) ∧
        stats.hits = lookups.countP (Lookup.isHit readers project)) ∧
      ∀ other, ((state.cleanup readers other).stats readers project).map Stats.atRest =
        (state.stats readers project).map Stats.atRest := by
  refine ⟨reachable.exists_chronicle _, ?_⟩
  intro requests lookups events chronicle Asked reads given
  refine ⟨?_, ?_, ?_, ?_⟩
  · rw [stats_eq_none_iff, chronicle.known_iff]
    constructor
    · intro idle question ⟨other, cleanup, asked, same⟩
      by_contra busy
      exact idle ⟨other, question, cleanup, asked, same, busy⟩
    · intro idle ⟨other, question, cleanup, asked, same, busy⟩
      exact busy (idle question ⟨other, cleanup, asked, same⟩)
  · rw [stats_eq_none_iff, chronicle.labelled.toIndexed.isSome_memory_iff]
    simp only [not_exists, not_and, ne_eq]
  · intro stats told
    have accounts := chronicle.accounts
    have split := countP_isFailure readers project lookups
    rw [chronicle.countP_isBlind] at split
    rw [stats_eq_memory] at told
    obtain ⟨entry, memory, rfl⟩ := Option.map_eq_some_iff.mp told
    have cache : state.cacheOf readers project = entry.2 := by rw [cacheOf, memory, Option.elim_some]
    rw [cache] at accounts
    refine ⟨accounts.given, accounts.misses, split, fun none_asked => ?_, accounts.hits⟩
    have quiet := chronicle.countP_isFailure_eq_zero fun other type target cleanup asked same =>
      none_asked type target ⟨other, cleanup, asked, same⟩
    have none_missed : lookups.countP (Lookup.isMiss readers project) = 0 := by omega
    rw [accounts.misses, none_missed, Nat.add_zero]
  · intro other
    rw [stats_eq_memory, stats_eq_memory, memory_cleanup, Option.map_map, Option.map_map]
    rfl

theorem statistics_after_two_questions :
    ∃ after, afterSuperclass.ask circles.readers "p" (.interfaces "a.High") false =
        some (.names (some [⟨"a/Left"⟩]), after) ∧
      (after.stats circles.readers "p").map Stats.atRest =
        some { cached := 1, hits := 1, misses := 2, readerActive := false } := by
  let key := circles.readers.key "p"
  have spares₁ : ¬ Request.Clears circles.readers key (.ask "p" (.superclass "a.High") true) := id
  have spares₂ : ¬ Request.Clears circles.readers key (.ask "p" (.interfaces "a.High") false) := id
  have chronicle₁ : Chronicle circles.readers key _ _ _ afterSuperclass :=
    .perform (.start {}) spares₁ rfl rfl
  have asked : afterSuperclass.perform circles.readers (.ask "p" (.interfaces "a.High") false) =
      some (some (.names (some [⟨"a/Left"⟩])), _) := rfl
  have chronicle₂ := chronicle₁.perform spares₂ asked rfl
  have ran : afterSuperclass.run circles.readers [.ask "p" (.interfaces "a.High") false] =
      some ([some (.names (some [⟨"a/Left"⟩]))], _) := rfl
  have reachable := reachable_afterSuperclass.imp fun _ steps => steps.trans (steps_of_run ran)
  obtain ⟨-, account⟩ := statistics_of_chronicle reachable "p"
  obtain ⟨nowhere, -, account, -⟩ := account _ _ _ chronicle₂
  refine ⟨_, rfl, ?_⟩
  cases told : State.stats circles.readers _ "p" with
  | none => exact (nowhere.mp told (.superclass "a.High") ⟨"p", true, by simp, rfl⟩).elim
  | some stats =>
    obtain ⟨⟨cached, -⟩, misses, -, -, hits⟩ := account stats told
    have cached : stats.cached = 1 := cached
    have misses : stats.misses = 2 := misses
    have hits : stats.hits = 1 := hits
    simp [Stats.atRest, cached, misses, hits]

/-- An engine that has been asked one question, whether `a.High` implements `a.Left`. -/
def afterImplements : State String String FactTable.Reader FactTable.Ledger :=
  (look circles.readers .full "p" (.ofString "a.High") (.start {})).2

/-- **The first look of the first question is not counted.** The pass over the cache fails once, as
nothing is known of the project, and one fact is read then. Only the two misses of the read are
counted. -/
theorem misses_after_first_question :
    ∃ requests lookups events stats,
      Chronicle circles.readers (circles.readers.key "p") requests lookups events
        afterImplements ∧
      requests = [.ask "p" (.implementsInterface "a.High" "a.Left") false] ∧
      afterImplements.stats circles.readers "p" = some stats ∧
      let reads := readsOf circles.readers (circles.readers.key "p") events
      let failures := lookups.countP (Lookup.isFailure circles.readers "p")
      reads.length = 1 ∧ failures = 1 ∧ stats.misses = 2 ∧
        stats.misses ≠ 2 * reads.length + failures := by
  let question : Question := .implementsInterface "a.High" "a.Left"
  let start : State String String FactTable.Reader FactTable.Ledger := .start {}
  let first : Lookup (State String String FactTable.Reader FactTable.Ledger) :=
    ⟨.cachedOnly, .ofString "a.High", start⟩
  let second : Lookup (State String String FactTable.Reader FactTable.Ledger) :=
    ⟨.full, .ofString "a.High", start⟩
  -- Both passes, with the record of their looks.
  have cachedPass : searchClasses (recordedLook circles.readers "p" .cachedOnly) .cachedOnly
      (.ofString "a.Left") (some (.ofString "a.High")) {} (start, []) =
        some (.inconclusive, start, [first]) :=
    SearchesClasses.eq (.unknown (by simp) rfl)
  have fullPass : searchClasses (recordedLook circles.readers "p" .full) .full
      (.ofString "a.Left") (some (.ofString "a.High")) {} (start, [first]) =
        some (.found, afterImplements, [first, second]) :=
    SearchesClasses.eq (.found (by simp) rfl (.declares rfl))
  have lookups : start.lookups circles.readers "p" question = [first, second] :=
    lookups_of_inconclusive cachedPass fullPass
  -- The passes as they are made, without a record.
  have implements : start.implementsInterface circles.readers "p" (.ofString "a.High")
      (.ofString "a.Left") = some (true, afterImplements) :=
    implementsInterface_of_inconclusive (SearchesClasses.eq (.unknown (by simp) rfl))
      (SearchesClasses.eq (.found (by simp) rfl (.declares rfl)))
  have performed : start.perform circles.readers (.ask "p" question false) =
      some (some (.flag true), afterImplements) := by
    simp [State.perform, State.ask, State.answer, question, implements, State.finish]
  have spares : ¬ Request.Clears circles.readers (circles.readers.key "p")
      (.ask "p" question false) := id
  have chronicle := Chronicle.perform (.start {}) spares performed rfl
  refine ⟨_, _, _, _, chronicle, rfl, rfl, ?_⟩
  have looked : start.lookupsFor circles.readers (circles.readers.key "p")
      (.ask "p" question false) = [first, second] := by
    rw [lookupsFor, if_pos rfl, lookups]
  rw [List.nil_append, looked]
  exact ⟨rfl, rfl, rfl, by decide⟩

end TypeLineage.Engine
