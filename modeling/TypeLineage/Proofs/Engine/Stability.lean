import TypeLineage.Fact.Table
import TypeLineage.Proofs.Engine.Looks
import TypeLineage.Proofs.Engine.Steps

/-!
# Positive answers stay

A positive answer is borne out by the facts that are cached when it is given: not only the last of
them but all that led there. None of them is lost before the project is forgotten, whatever the
readers would say now. So the same question is answered from the cache from then on, and the walk
that answers it asks no reader, however much is missing elsewhere.
-/

namespace TypeLineage.Engine

open Relation Hierarchy

variable {π κ ρ ω : Type} [DecidableEq κ] {readers : Readers π κ ρ ω} {project : π}
  {state state' : State π κ ρ ω} {facts more : Facts} {question : Question} {answer : Answer}

/-- The facts bear out a positive answer. -/
inductive Supports (facts : Facts) : Question → Answer → Prop where
  /-- The fact of the type names the superclass. -/
  | superclass {type : String} {upper : TypeName}
      (edge : SuperclassOf facts (.ofString type) upper) :
      Supports facts (.superclass type) (.name (some upper))
  /-- The fact of the type declares the interfaces. -/
  | interfaces {type : String} {fact : Fact} (known : facts (.ofString type) = some fact) :
      Supports facts (.interfaces type) (.names (some fact.interfaces))
  /-- Superclass edges lead to the class. -/
  | extendsClass {type target : String} (up : Extends facts (.ofString type) (.ofString target)) :
      Supports facts (.extendsClass type target) (.flag true)
  /-- A fact that is reached declares the interface. -/
  | implementsInterface {type target : String}
      (implements : Implements facts (.ofString type) (.ofString target)) :
      Supports facts (.implementsInterface type target) (.flag true)

theorem Supports.grows (h : Supports facts question answer) (grown : Grows facts more) :
    Supports more question answer := by
  cases h with
  | superclass edge => exact .superclass (grown.superclassOf edge)
  | interfaces known => exact .interfaces (grown _ _ known)
  | extendsClass up => exact .extendsClass (grown.extends up)
  | implementsInterface implements => exact .implementsInterface (grown.implements implements)

/-- The cache bears out a positive answer when it is given. -/
theorem supports_of_answer
    (answered : state.answer readers project question = some (answer, state'))
    (positive : answer.positive = true) :
    Supports (state'.cached readers project) question answer := by
  cases question with
  | superclass type =>
    have learns := (remembers_look readers .full project).learns (.ofString type) state
    obtain ⟨rfl, rfl⟩ := Prod.mk.inj (Option.some.inj answered)
    obtain ⟨upper, named⟩ := Option.isSome_iff_exists.mp positive
    obtain ⟨fact, given, edge⟩ := Option.bind_eq_some_iff.mp named
    exact named ▸ .superclass ⟨fact, learns fact trivial given, edge⟩
  | interfaces type =>
    have learns := (remembers_look readers .full project).learns (.ofString type) state
    obtain ⟨rfl, rfl⟩ := Prod.mk.inj (Option.some.inj answered)
    obtain ⟨names, named⟩ := Option.isSome_iff_exists.mp positive
    obtain ⟨fact, given, rfl⟩ := Option.map_eq_some_iff.mp named
    exact named ▸ .interfaces (learns fact trivial given)
  | extendsClass type target =>
    obtain ⟨⟨holds, state₁⟩, climbed, answered⟩ := Option.bind_eq_some_iff.mp answered
    cases answered
    obtain rfl : holds = true := positive
    exact .extendsClass ((remembers_look readers .full project).extends_of_climb trivial climbed)
  | implementsInterface type target =>
    obtain ⟨⟨holds, state₁⟩, searched, answered⟩ := Option.bind_eq_some_iff.mp answered
    cases answered
    obtain rfl : holds = true := positive
    obtain ⟨⟨verdict, state₁⟩, cachedPass, rest⟩ := Option.bind_eq_some_iff.mp searched
    cases verdict with
    | found =>
      cases rest
      have remembers := remembers_look readers .cachedOnly project
      exact .implementsInterface (remembers.implements_of_pass trivial cachedPass)
    | absent => cases rest
    | inconclusive =>
      obtain ⟨⟨verdict, state₂⟩, fullPass, rest⟩ := Option.bind_eq_some_iff.mp rest
      cases verdict with
      | found =>
        cases rest
        have remembers := remembers_look readers .full project
        exact .implementsInterface (remembers.implements_of_pass trivial fullPass)
      | absent | inconclusive => cases rest

/-- What the cache bears out is answered from it. -/
theorem exists_answer_of_supports (h : Supports (state.cached readers project) question answer) :
    ∃ after, state.answer readers project question = some (answer, after) ∧
      after.trace = state.trace := by
  have mirrors : Mirrors (look readers .cachedOnly project) _ (state.cached readers project) :=
    mirrors_lookCached project _
  have quiet := keeps_trace_lookCached readers project state.trace
  cases h with
  | @superclass type upper edge =>
    obtain ⟨fact, known, edge⟩ := edge
    refine ⟨(state.lookCached readers project (.ofString type)).2, ?_, by simp⟩
    simp [State.answer_superclass, look_of_cached known, State.lookCached_fst, known, edge]
  | @interfaces type fact known =>
    refine ⟨(state.lookCached readers project (.ofString type)).2, ?_, by simp⟩
    simp [State.answer_interfaces, look_of_cached known, State.lookCached_fst, known]
  | @extendsClass type target up =>
    obtain ⟨holds, after, climbed⟩ :=
      exists_cachedClimb readers state project (.ofString type) (.ofString target)
    obtain rfl : holds = true := (mirrors.isMet_iff rfl climbed).mpr up
    have course := Climbs.of_eq climbed
    refine ⟨after, ?_, quiet.of_climbs rfl course⟩
    have climbed' := ((agrees_look project).of_climbs course rfl).eq
    simp [State.answer, State.extendsClass, climbed']
  | @implementsInterface type target implements =>
    obtain ⟨verdict, after, cachedPass⟩ :=
      exists_cachedPass readers state project (.ofString type) (.ofString target)
    obtain rfl : verdict = .found := (mirrors.found_iff rfl cachedPass).mpr implements
    obtain ⟨met, course⟩ := SearchesClasses.of_eq cachedPass
    refine ⟨after, ?_, quiet.of_searchesClasses rfl course⟩
    simp [State.answer, implementsInterface_of_decided cachedPass (by decide)]

/-- A run in which a project is not forgotten loses no fact of it. -/
theorem preserves_grows (facts : Facts) (project : π) :
    Preserves readers (fun request => ¬ request.Clears readers (readers.key project)) fun state =>
      Grows facts (state.cached readers project) where
  look pass other name state grown := grown.trans (grows_look readers pass other project name state)
  cleanup state other grown := by rwa [State.cached_cleanup]
  clear state other permitted grown := by
    have differs : readers.key project ≠ readers.key other := by
      rcases permitted with spared | spared
      · exact fun same => spared same.symm
      · exact absurd trivial spared
    rwa [State.cached_clear_of_ne readers state other differs]
  drift _ _ grown := grown

/-- **Positive answers last**: a question that has been answered positively gets the same answer
until its project is forgotten, and no reader is made or asked for it. -/
theorem exists_ask_of_positive {project' : π} (same : readers.key project' = readers.key project)
    {cleanup cleanup' : Bool} {state₁ state₂ : State π κ ρ ω}
    (asked : state.ask readers project question cleanup = some (answer, state₁))
    (positive : answer.positive = true)
    (later : ReflTransGen
      (Step readers fun request => ¬ request.Clears readers (readers.key project)) state₁ state₂) :
    ∃ state₃ events, state₂.ask readers project' question cleanup' = some (answer, state₃) ∧
      state₃.trace = state₂.trace ++ events ∧ ∀ event ∈ events, event.isFetch = false := by
  obtain ⟨⟨answer₁, state'⟩, answered, asked⟩ := Option.bind_eq_some_iff.mp asked
  cases asked
  have before := supports_of_answer answered positive
  have grown : Grows (state'.cached readers project) (state₂.cached readers project') := by
    rw [State.cached_congr _ same]
    refine (preserves_grows _ project).steps ?_ later
    rw [State.cached_finish]
    exact .refl _
  obtain ⟨after, answered', silent⟩ := exists_answer_of_supports (before.grows grown)
  obtain ⟨events, traced, quiet⟩ := State.trace_finish readers after project' cleanup'
  exact ⟨_, events, State.ask_of_answer answered', by rw [traced, silent], quiet⟩

/-- Readers of a table that may change: the world is the table. -/
def changing : Readers String String Unit FactTable where
  key project := project
  create _ table := ((), table)
  read _ name table := (table.find? name, (), table)
  release _ table := ((), table)

/-- One class and the name of its superclass. -/
def lowClass : FactTable := .ofList [{ subject := ⟨"a/Low"⟩, superclass := some ⟨"a/High"⟩ }]

/-- An engine that has looked up the class while it was in the table. -/
def lowKnown : State String String Unit FactTable :=
  (look changing .full "p" ⟨"a/Low"⟩ (.start lowClass)).2

theorem climbs_lowClass :
    Climbs (look changing .full "p") ⟨"a/High"⟩ (some ⟨"a/Low"⟩) [] (.start lowClass) true
      lowKnown :=
  .next (by decide) (by simp) rfl .here

/-- What a class is known to extend is still known when the table has been emptied. -/
theorem extendsClass_after_change :
    ∃ state₃ events,
      State.ask changing { lowKnown with world := {} } "p" (.extendsClass "a.Low" "a.High") true =
        some (.flag true, state₃) ∧
      state₃.trace = lowKnown.trace ++ events ∧ ∀ event ∈ events, event.isFetch = false := by
  have low : TypeName.ofString "a.Low" = ⟨"a/Low"⟩ := by decide
  have high : TypeName.ofString "a.High" = ⟨"a/High"⟩ := by decide
  have answered : (State.start lowClass).answer changing "p" (.extendsClass "a.Low" "a.High") =
      some (.flag true, lowKnown) := by
    simp [State.answer, State.extendsClass, low, high, climbs_lowClass.eq]
  have asked : (State.start lowClass).ask changing "p" (.extendsClass "a.Low" "a.High") false =
      some (.flag true, lowKnown) := State.ask_of_answer answered
  exact exists_ask_of_positive rfl asked rfl (.single (.drift _))

end TypeLineage.Engine
