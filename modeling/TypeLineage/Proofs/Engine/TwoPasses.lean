import TypeLineage.Proofs.Engine.Counters
import TypeLineage.Proofs.Engine.Index
import TypeLineage.Proofs.Walk.Endless

/-!
# Two passes do what one would

Whether a type implements an interface is looked for in the cache first. What is proved here is that
this makes no difference wherever a pass over everything ends, whatever happens to be cached and
whatever the readers do: the answer is the one that this pass would have given at once, and either
no reader is made or asked, or it is done just as that pass would have done it.

A pass over everything need not end, if the readers name new types for ever. It ends if all that the
cache and the readers can lead to is finite. Where it does not end, the question has no answer
either, unless the cache is enough to find the interface: then the answer is yes, and no reader is
made or asked.
-/

namespace TypeLineage.Engine

open Hierarchy

variable {π κ ρ ω : Type} [DecidableEq κ] {readers : Readers π κ ρ ω} {project : π}
  {name target : TypeName} {state state₁ full : State π κ ρ ω} {verdict : Verdict}

/-- What a pass over the cache only finds, every pass over everything finds. -/
theorem found_of_cachedPass
    (cachedPass : searchPass readers .cachedOnly project name target state = some (.found, state₁))
    (fullPass : searchPass readers .full project name target state = some (verdict, full)) :
    verdict = .found := by
  have mirrors : Mirrors (look readers .cachedOnly project) _ (state.cached readers project) :=
    mirrors_lookCached project _
  have implements := (mirrors.found_iff rfl cachedPass).mp rfl
  have recalls := recalls_look readers .full project (state.cached readers project)
  by_contra notFound
  exact recalls.not_implements_of_pass (.refl _) fullPass notFound implements

/-- A pass over the cache only changes nothing but counters. -/
theorem alike_of_cachedPass
    (cachedPass : searchPass readers .cachedOnly project name target state =
      some (verdict, state₁)) : State.Alike readers state₁ state := by
  obtain ⟨met, course⟩ := SearchesClasses.of_eq cachedPass
  exact (keeps_alike_lookCached project state).of_searchesClasses (.refl readers state) course

/-- What a pass over the cache only denies, a pass over everything denies as well, and has nothing
to read. -/
theorem absent_of_cachedPass
    (cachedPass : searchPass readers .cachedOnly project name target state =
      some (.absent, state₁)) :
    searchPass readers .full project name target state = some (.absent, state₁) ∧
      state₁.trace = state.trace :=
  ⟨(agrees_look project).absent cachedPass, (alike_of_cachedPass cachedPass).trace⟩

/-- All that a pass over everything does, as seen from outside, is to make readers and ask them. -/
theorem trace_of_fullPass
    (fullPass : searchPass readers .full project name target state = some (verdict, full)) :
    ∃ events, full.trace = state.trace ++ events ∧ ∀ event ∈ events, event.isFetch = true := by
  obtain ⟨met, course⟩ := SearchesClasses.of_eq fullPass
  exact (keeps_trace_lookFull project state.trace).of_searchesClasses ⟨[], by simp, by simp⟩ course

/-- If a pass over everything ends, so do the two passes, with its outcome; either they leave no
trace or just the one that it leaves. -/
theorem exists_implementsInterface_of_fullPass
    (fullPass : searchPass readers .full project name target state = some (verdict, full)) :
    ∃ after, state.implementsInterface readers project name target =
        some (verdict == .found, after) ∧
      (after.trace = state.trace ∨ after.trace = full.trace) := by
  obtain ⟨cachedVerdict, state₁, cachedPass⟩ := exists_cachedPass readers state project name target
  have alike := alike_of_cachedPass cachedPass
  cases cachedVerdict with
  | found =>
    obtain rfl := found_of_cachedPass cachedPass fullPass
    exact ⟨state₁, implementsInterface_of_decided cachedPass (by decide), .inl alike.trace⟩
  | absent =>
    have same := (absent_of_cachedPass cachedPass).1.symm.trans fullPass
    obtain ⟨rfl, rfl⟩ := Prod.mk.inj (Option.some.inj same)
    exact ⟨state₁, implementsInterface_of_decided cachedPass (by decide), .inl alike.trace⟩
  | inconclusive =>
    -- Only counters have changed when the second pass starts.
    obtain ⟨after, secondPass, alike'⟩ :=
      (simulates_lookFull readers project).of_pass alike.symm fullPass
    exact ⟨after, implementsInterface_of_inconclusive cachedPass secondPass, .inr alike'.trace.symm⟩

/-- Unless the cache is enough to find the interface, the two passes end only if a pass over
everything does. -/
theorem exists_fullPass_of_implementsInterface {holds : Bool} {after : State π κ ρ ω}
    (cachedPass : searchPass readers .cachedOnly project name target state = some (verdict, state₁))
    (notFound : verdict ≠ .found)
    (searched : state.implementsInterface readers project name target = some (holds, after)) :
    ∃ full, searchPass readers .full project name target state = some full := by
  cases verdict with
  | found => exact absurd rfl notFound
  | absent => exact ⟨_, (absent_of_cachedPass cachedPass).1⟩
  | inconclusive =>
    have alike := alike_of_cachedPass cachedPass
    obtain ⟨⟨_, _⟩, firstPass, rest⟩ := Option.bind_eq_some_iff.mp searched
    obtain ⟨rfl, rfl⟩ := Prod.mk.inj (Option.some.inj (cachedPass.symm.trans firstPass))
    obtain ⟨⟨verdict, state₂⟩, secondPass, -⟩ := Option.bind_eq_some_iff.mp rest
    obtain ⟨full, fullPass, -⟩ := (simulates_lookFull readers project).of_pass alike secondPass
    exact ⟨(verdict, full), fullPass⟩

/-- If the cache is enough to find the interface, the answer is yes and no reader is made or asked,
whether or not a pass over everything would end. -/
theorem exists_ask_of_found (type interface : String)
    (cachedPass : searchPass readers .cachedOnly project (.ofString type) (.ofString interface)
      state = some (.found, state₁)) (cleanup : Bool) :
    ∃ after events,
      state.ask readers project (.implementsInterface type interface) cleanup =
        some (.flag true, after) ∧
      after.trace = state.trace ++ events ∧ events.filter Event.isFetch = [] := by
  have found := implementsInterface_of_decided cachedPass (by simp)
  obtain ⟨events, traced, quiet⟩ := state₁.trace_finish readers project cleanup
  refine ⟨state₁.finish readers project cleanup, events, ?_, ?_, by simpa using quiet⟩
  · exact State.ask_of_answer (by simp [State.answer, found])
  · rw [traced, (alike_of_cachedPass cachedPass).trace]

/-- If a pass over everything ends, the question is answered with its outcome, and the readers made
and asked are none at all or those of that pass. -/
theorem exists_ask_of_fullPass (type interface : String)
    (fullPass : searchPass readers .full project (.ofString type) (.ofString interface) state =
      some (verdict, full)) (cleanup : Bool) :
    ∃ after events,
      state.ask readers project (.implementsInterface type interface) cleanup =
        some (.flag (verdict == .found), after) ∧
      after.trace = state.trace ++ events ∧
      (events.filter Event.isFetch = [] ∨
        full.trace = state.trace ++ events.filter Event.isFetch) := by
  obtain ⟨answered, found, traces⟩ := exists_implementsInterface_of_fullPass fullPass
  obtain ⟨released, traced, quiet⟩ := answered.trace_finish readers project cleanup
  have asked : state.ask readers project (.implementsInterface type interface) cleanup =
      some (.flag (verdict == .found), answered.finish readers project cleanup) :=
    State.ask_of_answer (by simp [State.answer, found])
  have silent : released.filter Event.isFetch = [] := by simpa using quiet
  rcases traces with same | same
  · exact ⟨_, released, asked, by rw [traced, same], .inl silent⟩
  · obtain ⟨fetched, traced', fetches⟩ := trace_of_fullPass fullPass
    have joined : (answered.finish readers project cleanup).trace =
        state.trace ++ (fetched ++ released) := by
      rw [traced, same, traced', List.append_assoc]
    refine ⟨_, fetched ++ released, asked, joined, .inr ?_⟩
    rw [List.filter_append, silent, List.filter_eq_self.mpr fetches, List.append_nil, traced']

/-- **The search in two passes refines a pass over everything**, wherever that pass ends. The pass
over the cache always has a verdict: it finds only what every pass over everything finds that ends,
and it denies exactly what has all its facts cached and none that declares the interface, which a
pass over everything denies as well without reading. That pass is never inconclusive, and it ends if
cache and readers stay within finitely many names; it also ends if the question is answered
otherwise than by finding the interface in the cache. When it ends, the question is answered as by
that pass alone, and the readers made and asked are none at all or those of that pass. What is found
in the cache is answered without readers in any case. -/
theorem twoPasses_refine_fullPass (readers : Readers π κ ρ ω) (state : State π κ ρ ω) (project : π)
    (type interface : String) :
    let cachedPass :=
      searchPass readers .cachedOnly project (.ofString type) (.ofString interface) state
    let fullPass := searchPass readers .full project (.ofString type) (.ofString interface) state
    let cached := state.cached readers project
    (∃ verdict after, cachedPass = some (verdict, after) ∧
      (verdict = .absent ↔ ∀ name, Reaches cached (.ofString type) name →
        ∃ fact, cached name = some fact ∧ TypeName.ofString interface ∉ fact.interfaces) ∧
      (verdict = .found →
        (∀ full, fullPass = some full → full.1 = .found) ∧
        ∀ cleanup, ∃ answered events,
          state.ask readers project (.implementsInterface type interface) cleanup =
            some (.flag true, answered) ∧
          answered.trace = state.trace ++ events ∧ events.filter Event.isFetch = []) ∧
      (verdict = .absent → ∃ full, fullPass = some (.absent, full) ∧ full.trace = state.trace) ∧
      ∀ cleanup answered, verdict ≠ .found →
        state.ask readers project (.implementsInterface type interface) cleanup = some answered →
        ∃ full, fullPass = some full) ∧
    (∀ names, TypeName.ofString type ∈ names → readers.StayWithin names →
      (∀ name ∈ names, ∀ fact, cached name = some fact → Within names fact) →
      ∃ full, fullPass = some full) ∧
    ∀ verdict full, fullPass = some (verdict, full) → verdict ≠ .inconclusive ∧
      ∀ cleanup, ∃ after events,
        state.ask readers project (.implementsInterface type interface) cleanup =
          some (.flag (verdict == .found), after) ∧
        after.trace = state.trace ++ events ∧
        (events.filter Event.isFetch = [] ∨
          full.trace = state.trace ++ events.filter Event.isFetch) := by
  intro cachedPass fullPass cached
  refine ⟨?_, ?_, ?_⟩
  · obtain ⟨verdict, after, searched⟩ :=
      exists_cachedPass readers state project (.ofString type) (.ofString interface)
    have mirrors : Mirrors (look readers .cachedOnly project) _ cached :=
      mirrors_lookCached project _
    refine ⟨verdict, after, searched, mirrors.absent_iff rfl searched, ?_, ?_, ?_⟩
    · rintro rfl
      refine ⟨?_, exists_ask_of_found type interface searched⟩
      rintro ⟨verdict, full⟩ searched'
      exact found_of_cachedPass searched searched'
    · rintro rfl
      obtain ⟨searched', silent⟩ := absent_of_cachedPass searched
      exact ⟨after, searched', silent⟩
    · intro cleanup answered notFound asked
      obtain ⟨⟨_, _⟩, answer, -⟩ := Option.bind_eq_some_iff.mp asked
      obtain ⟨⟨_, _⟩, implements, -⟩ := Option.bind_eq_some_iff.mp answer
      exact exists_fullPass_of_implementsInterface searched notFound implements
  · intro names member stay closed
    obtain ⟨verdict, full, searched⟩ :=
      (confined_lookFull stay project).exists_pass .full (.ofString interface) closed member
    exact ⟨(verdict, full), searched⟩
  · intro verdict full searched
    exact ⟨ne_inconclusive_of_full searched, exists_ask_of_fullPass type interface searched⟩

/-! ### Readers that never run out of names -/

/-- What is told of a type by readers that never run out of names: it declares the interface `J`,
and behind it the type with one more letter. `J` itself declares `I`. -/
def lengthening (name : TypeName) : Fact :=
  { subject := name
    interfaces := if name = ⟨"J"⟩ then [⟨"I"⟩] else [⟨"J"⟩, ⟨name.internal ++ "K"⟩] }

/-- Readers that never run out of names. -/
def lengtheningReaders : Readers String String Unit Unit where
  key project := project
  create _ _ := ((), ())
  read _ name _ := (some (lengthening name), (), ())
  release _ _ := ((), ())

/-- The names that follow on `K`. -/
def longer (more : Nat) : TypeName :=
  ⟨String.ofList (List.replicate (more + 1) 'K')⟩

theorem longer_ne (more : Nat) {text : String} (h : text.toList.head? ≠ some 'K') :
    longer more ≠ ⟨text⟩ := by
  intro same
  apply h
  rw [← TypeName.mk.inj same, String.toList_ofList, List.replicate_succ, List.head?_cons]

theorem interfaces_longer (more : Nat) :
    (lengthening (longer more)).interfaces = [⟨"J"⟩, longer (more + 1)] := by
  have other : longer more ≠ ⟨"J"⟩ := longer_ne more (by simp)
  have next : (longer more).internal ++ "K" = (longer (more + 1)).internal := by
    have behind : List.replicate (more + 1 + 1) 'K' = List.replicate (more + 1) 'K' ++ ['K'] :=
      List.replicate_succ'
    simp [longer, behind]
  rw [lengthening, if_neg other, next]

/-- The names that follow on `K` make a chain without end, which passes the interface `I` by. -/
theorem endless_lengthening : Endless (fun name => some (lengthening name)) ⟨"I"⟩ longer where
  injective := by
    intro more other same
    have length := congrArg (fun name => name.internal.toList.length) same
    simpa [longer] using length
  links := by
    intro more
    refine ⟨_, rfl, ⟨[⟨"J"⟩], interfaces_longer more, fun i member => ?_⟩, ?_⟩
    · exact longer_ne i (by simp) (List.mem_singleton.mp member)
    · have other : longer (more + 1) ≠ ⟨"I"⟩ := longer_ne (more + 1) (by simp)
      rw [Fact.declares, interfaces_longer]
      simp [other.symm]

/-- An engine that has been asked for the interfaces of `K` and of `J`. -/
def afterInterfaces : State String String Unit Unit :=
  let asked := (State.start ()).interfacesOf lengtheningReaders "p" (.ofString "K")
  (asked.2.interfacesOf lengtheningReaders "p" (.ofString "J")).2

theorem reachable_afterInterfaces : Reachable lengtheningReaders afterInterfaces := by
  have ran : (State.start ()).run lengtheningReaders
      [.ask "p" (.interfaces "K") false, .ask "p" (.interfaces "J") false] =
      some ([some (.names _), some (.names _)], afterInterfaces) := rfl
  exact ⟨(), steps_of_run ran⟩

/-- **A pass over everything need not end where the cache is enough.** `K` and `J` are cached, so
the pass over the cache finds that `K` implements `I`, by way of `J`. A pass over everything puts
the type behind `J` on top of `J`, reads it, and follows ever longer names from there. -/
theorem found_where_fullPass_never_ends :
    Reachable lengtheningReaders afterInterfaces ∧
      (∃ after, searchPass lengtheningReaders .cachedOnly "p" (.ofString "K") (.ofString "I")
        afterInterfaces = some (.found, after)) ∧
      (∃ after, afterInterfaces.ask lengtheningReaders "p" (.implementsInterface "K" "I") true =
        some (.flag true, after)) ∧
      searchPass lengtheningReaders .full "p" (.ofString "K") (.ofString "I") afterInterfaces =
        none := by
  obtain ⟨verdict, found, searched⟩ :=
    exists_cachedPass lengtheningReaders afterInterfaces "p" (.ofString "K") (.ofString "I")
  have mirrors : Mirrors (look lengtheningReaders .cachedOnly "p") _
      (afterInterfaces.cached lengtheningReaders "p") := mirrors_lookCached "p" _
  have implements :
      Implements (afterInterfaces.cached lengtheningReaders "p") ⟨"K"⟩ (.ofString "I") := by
    have edge : InterfaceOf (afterInterfaces.cached lengtheningReaders "p") ⟨"K"⟩ ⟨"J"⟩ :=
      ⟨lengthening ⟨"K"⟩, rfl, .head _⟩
    exact ⟨⟨"J"⟩, lengthening ⟨"J"⟩, ⟨⟨"K"⟩, .refl, .single edge⟩, rfl, .head _⟩
  obtain rfl : verdict = .found := (mirrors.found_iff rfl searched).mpr implements
  obtain ⟨after, events, asked, -⟩ := exists_ask_of_found "K" "I" searched true
  refine ⟨reachable_afterInterfaces, ⟨found, searched⟩, ⟨after, asked⟩, ?_⟩
  have answers : lengtheningReaders.AnswerFrom fun name => some (lengthening name) :=
    fun _ _ _ => rfl
  have coherent := reachable_afterInterfaces.coherent answers
  exact (mirrors_lookFull answers "p").searchClasses_eq_none endless_lengthening coherent 0

end TypeLineage.Engine
