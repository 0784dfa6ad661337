import TypeLineage.Proofs.Engine.Steps
import TypeLineage.Proofs.Engine.Looks

/-!
# What facts say

Every question has one answer that is right by given facts. Where looks give what the facts say, all
that is cached is one of these facts, and walks meet finitely many names, this is the answer that
the engine gives, and it does give one.

A walk over the cache alone may be over early. If it finds the interface, the facts it has seen are
among the given ones; if it missed nothing, a full pass would have gone the same way.
-/

namespace TypeLineage.Engine

open Relation Hierarchy Look

variable {π κ ρ ω : Type}

/-- The answer is what the facts say to the question. -/
inductive Tells (facts : Facts) : Question → Answer → Prop where
  /-- The superclass is the one of the type's fact. -/
  | superclass (type : String) :
      Tells facts (.superclass type) (.name ((facts (.ofString type)).bind Fact.superclass))
  /-- The interfaces are those of the type's fact. -/
  | interfaces (type : String) :
      Tells facts (.interfaces type) (.names ((facts (.ofString type)).map Fact.interfaces))
  /-- Superclass edges lead to the class, or do not. -/
  | extendsClass {type target : String} {holds : Bool}
      (decided : holds = true ↔ Extends facts (.ofString type) (.ofString target)) :
      Tells facts (.extendsClass type target) (.flag holds)
  /-- A fact that is reached declares the interface, or none does. -/
  | implementsInterface {type target : String} {holds : Bool}
      (decided : holds = true ↔ Implements facts (.ofString type) (.ofString target)) :
      Tells facts (.implementsInterface type target) (.flag holds)

/-- Facts say one thing only to a question. -/
theorem Tells.unique {facts : Facts} {question : Question} {answer other : Answer}
    (h : Tells facts question answer) (h' : Tells facts question other) : answer = other := by
  cases h with
  | superclass | interfaces =>
    cases h'
    rfl
  | extendsClass decided | implementsInterface decided =>
    cases h' with
    | _ decided' => rw [Bool.eq_iff_iff.mpr (decided.trans decided'.symm)]

variable [DecidableEq κ] {readers : Readers π κ ρ ω} {project : π} {inv : State π κ ρ ω → Prop}
  {facts : Facts} {state : State π κ ρ ω}

/-- As long as something is so of an engine, all that it comes to know of a project is what the
facts say, and these lead from any type to finitely many. -/
structure Grounded (readers : Readers π κ ρ ω) (project : π) (inv : State π κ ρ ω → Prop)
    (facts : Facts) : Prop where
  /-- Looking at the cache changes nothing about that. -/
  lookCached : Keeps (look readers .cachedOnly project) inv
  /-- Other looks give what the facts say. -/
  lookFull : Mirrors (look readers .full project) inv facts
  /-- What is cached is one of the facts. -/
  coherent : ∀ state, inv state → Grows (state.cached readers project) facts
  /-- Walks meet finitely many names. -/
  finite : ∀ start, ∃ names, start ∈ names ∧ Confined (look readers .full project) inv names

namespace Grounded

/-- A climb has the outcome that the facts say. -/
theorem exists_extendsClass (h : Grounded readers project inv facts) (valid : inv state)
    (name target : TypeName) :
    ∃ holds after, state.extendsClass readers project name target = some (holds, after) ∧
      (holds = true ↔ Extends facts name target) := by
  obtain ⟨names, member, confined⟩ := h.finite name
  obtain ⟨holds, after, climbed⟩ := confined.exists_climb target valid member
  exact ⟨holds, after, climbed, h.lookFull.isMet_iff valid climbed⟩

/-- The two passes come to the outcome that the facts say. -/
theorem exists_implementsInterface (h : Grounded readers project inv facts) (valid : inv state)
    (name target : TypeName) :
    ∃ holds after, state.implementsInterface readers project name target = some (holds, after) ∧
      (holds = true ↔ Implements facts name target) := by
  obtain ⟨verdict, state₁, cachedPass⟩ := exists_cachedPass readers state project name target
  cases verdict with
  | found =>
    have cached := ((mirrors_lookCached project _).found_iff rfl cachedPass).mp rfl
    have implements := (h.coherent state valid).implements cached
    exact ⟨_, _, implementsInterface_of_decided cachedPass (by decide), by simpa using implements⟩
  | absent =>
    have fullPass : searchPass readers .full project name target state = some (.absent, state₁) :=
      (agrees_look project).absent cachedPass
    have denied := h.lookFull.found_iff valid fullPass
    exact ⟨_, _, implementsInterface_of_decided cachedPass (by decide), by simpa using denied⟩
  | inconclusive =>
    obtain ⟨met₁, course⟩ := SearchesClasses.of_eq cachedPass
    have valid₁ := h.lookCached.of_searchesClasses valid course
    obtain ⟨names, member, confined⟩ := h.finite name
    obtain ⟨verdict, state₂, fullPass⟩ := confined.exists_pass .full target valid₁ member
    have decided := h.lookFull.found_iff valid₁ fullPass
    exact ⟨_, _, implementsInterface_of_inconclusive cachedPass fullPass, by simpa using decided⟩

/-- Every question is answered, with what the facts say. -/
theorem exists_answer (h : Grounded readers project inv facts) (valid : inv state)
    (question : Question) :
    ∃ answer after, state.answer readers project question = some (answer, after) ∧ inv after ∧
      Tells facts question answer := by
  have looks : ∀ pass, Keeps (look readers pass project) inv := by
    intro pass
    cases pass with
    | cachedOnly => exact h.lookCached
    | full => exact h.lookFull.keeps
  have stays : ∀ {answer after}, state.answer readers project question = some (answer, after) →
      inv after := keeps_of_answer looks valid
  cases question with
  | superclass type =>
    have given := h.lookFull.mirrors (.ofString type) state valid
    refine ⟨_, _, rfl, stays rfl, ?_⟩
    show Tells facts _ (.name ((look readers .full project (.ofString type) state).1.bind _))
    rw [given]
    exact .superclass type
  | interfaces type =>
    have given := h.lookFull.mirrors (.ofString type) state valid
    refine ⟨_, _, rfl, stays rfl, ?_⟩
    show Tells facts _ (.names ((look readers .full project (.ofString type) state).1.map _))
    rw [given]
    exact .interfaces type
  | extendsClass type target =>
    obtain ⟨holds, after, climbed, decided⟩ :=
      h.exists_extendsClass valid (.ofString type) (.ofString target)
    have answered : state.answer readers project (.extendsClass type target) =
        some (.flag holds, after) := by simp [State.answer, climbed]
    exact ⟨_, _, answered, stays answered, .extendsClass decided⟩
  | implementsInterface type target =>
    obtain ⟨holds, after, searched, decided⟩ :=
      h.exists_implementsInterface valid (.ofString type) (.ofString target)
    have answered : state.answer readers project (.implementsInterface type target) =
        some (.flag holds, after) := by simp [State.answer, searched]
    exact ⟨_, _, answered, stays answered, .implementsInterface decided⟩

end Grounded

end TypeLineage.Engine
