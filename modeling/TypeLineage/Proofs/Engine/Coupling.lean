import TypeLineage.Proofs.Engine.Apart
import TypeLineage.Proofs.Engine.Looks

/-!
# Two engines side by side

Two engines may differ in their past, in what they remember of other projects, in the readers that
are in use, even in the kind of readers. If looks give the same in both nevertheless, and no
operation takes them out of their relation, they answer alike: every question, and by that every
request and every run of requests.
-/

namespace TypeLineage.Engine

open Look

variable {π κ ρ ω ρ' ω' : Type} [DecidableEq κ] {readers : Readers π κ ρ ω}
  {readers' : Readers π κ ρ' ω'} {about : π → Prop} {project : π}
  {related : State π κ ρ ω → State π κ ρ' ω' → Prop} {state state' : State π κ ρ ω}
  {twin : State π κ ρ' ω'}

/-- Engines that have the same facts cached for a project look up the same if what is read then is
the same in both. -/
theorem simulates_look
    (cached : ∀ state twin, related state twin →
      state.cached readers project = twin.cached readers' project)
    (counted : ∀ name state twin, related state twin →
      related (state.lookCached readers project name).2 (twin.lookCached readers' project name).2)
    (read : ∀ name state twin, related state twin → state.cached readers project name = none →
      (state.lookFull readers project name).1 = (twin.lookFull readers' project name).1 ∧
        related (state.lookFull readers project name).2 (twin.lookFull readers' project name).2)
    (pass : Pass) :
    Simulates related (look readers pass project) (look readers' pass project) := by
  intro name state twin rel
  have same := congrFun (cached state twin rel) name
  have ofCached : (state.lookCached readers project name).1 =
        (twin.lookCached readers' project name).1 ∧
      related (state.lookCached readers project name).2
        (twin.lookCached readers' project name).2 :=
    ⟨by rw [State.lookCached_fst, State.lookCached_fst, same], counted name state twin rel⟩
  cases known : state.cached readers project name with
  | some fact =>
    rw [look_of_cached known, look_of_cached (same ▸ known)]
    exact ofCached
  | none =>
    cases pass with
    | cachedOnly => exact ofCached
    | full => exact read name state twin rel known

/-- Engines that look up the same give the same answers. -/
theorem exists_answer_of_simulates
    (looks : ∀ pass, Simulates related (look readers pass project) (look readers' pass project))
    (rel : related state twin) {question : Question} {answer : Answer}
    (answered : state.answer readers project question = some (answer, state')) :
    ∃ twin', twin.answer readers' project question = some (answer, twin') ∧
      related state' twin' := by
  cases question with
  | superclass type =>
    obtain ⟨same, rel'⟩ := looks .full (.ofString type) state twin rel
    rw [State.answer_superclass] at answered
    obtain ⟨rfl, rfl⟩ := Prod.mk.inj (Option.some.inj answered)
    exact ⟨_, by rw [State.answer_superclass, same], rel'⟩
  | interfaces type =>
    obtain ⟨same, rel'⟩ := looks .full (.ofString type) state twin rel
    rw [State.answer_interfaces] at answered
    obtain ⟨rfl, rfl⟩ := Prod.mk.inj (Option.some.inj answered)
    exact ⟨_, by rw [State.answer_interfaces, same], rel'⟩
  | extendsClass type target =>
    obtain ⟨⟨holds, state₁⟩, climbed, answered⟩ := Option.bind_eq_some_iff.mp answered
    cases answered
    obtain ⟨twin', climbed', rel'⟩ := (looks .full).of_climb rel climbed
    exact ⟨twin', by simp [State.answer, State.extendsClass, climbed'], rel'⟩
  | implementsInterface type target =>
    obtain ⟨⟨holds, state₁⟩, searched, answered⟩ := Option.bind_eq_some_iff.mp answered
    cases answered
    obtain ⟨⟨verdict, state₁⟩, cachedPass, rest⟩ := Option.bind_eq_some_iff.mp searched
    obtain ⟨twin₁, cachedPass', rel₁⟩ := (looks .cachedOnly).of_pass rel cachedPass
    cases verdict with
    | found | absent =>
      cases rest
      have searched' := implementsInterface_of_decided cachedPass' (by decide)
      exact ⟨twin₁, by simp [State.answer, searched'], rel₁⟩
    | inconclusive =>
      obtain ⟨⟨verdict, state₂⟩, fullPass, rest⟩ := Option.bind_eq_some_iff.mp rest
      cases rest
      obtain ⟨twin₂, fullPass', rel₂⟩ := (looks .full).of_pass rel₁ fullPass
      have searched' := implementsInterface_of_inconclusive cachedPass' fullPass'
      exact ⟨twin₂, by simp [State.answer, searched'], rel₂⟩

/-- Related engines look up the same about certain projects, and stay related by that and when a
reader of these projects is released or one of them forgotten. -/
structure Couples (readers : Readers π κ ρ ω) (readers' : Readers π κ ρ' ω') (about : π → Prop)
    (related : State π κ ρ ω → State π κ ρ' ω' → Prop) : Prop where
  /-- Looking something up. -/
  look : ∀ pass project, about project →
    Simulates related (look readers pass project) (look readers' pass project)
  /-- Releasing a reader. -/
  cleanup : ∀ state twin project, about project → related state twin →
    related (state.cleanup readers project) (twin.cleanup readers' project)
  /-- Forgetting a project. -/
  clear : ∀ state twin project, about project → related state twin →
    related (state.clear readers project) (twin.clear readers' project)

namespace Couples

theorem symm (h : Couples readers readers' about related) :
    Couples readers' readers about fun twin state => related state twin where
  look pass project own name twin state rel := by
    obtain ⟨same, rel'⟩ := h.look pass project own name state twin rel
    exact ⟨same.symm, rel'⟩
  cleanup twin state project own rel := h.cleanup state twin project own rel
  clear twin state project own rel := h.clear state twin project own rel

theorem mono {fewer : π → Prop} (h : Couples readers readers' about related)
    (subset : ∀ project, fewer project → about project) :
    Couples readers readers' fewer related where
  look pass project own := h.look pass project (subset project own)
  cleanup state twin project own := h.cleanup state twin project (subset project own)
  clear state twin project own := h.clear state twin project (subset project own)

theorem ask (h : Couples readers readers' about related) (own : about project)
    (rel : related state twin) {question : Question} {cleanup : Bool} {answer : Answer}
    (asked : state.ask readers project question cleanup = some (answer, state')) :
    ∃ twin', twin.ask readers' project question cleanup = some (answer, twin') ∧
      related state' twin' := by
  obtain ⟨⟨answer₁, state₁⟩, answered, asked⟩ := Option.bind_eq_some_iff.mp asked
  cases asked
  obtain ⟨twin₁, answered', rel₁⟩ :=
    exists_answer_of_simulates (fun pass => h.look pass project own) rel answered
  refine ⟨_, State.ask_of_answer answered', ?_⟩
  unfold State.finish
  split
  · exact h.cleanup state₁ twin₁ project own rel₁
  · exact rel₁

theorem foldl_clear (h : Couples readers readers' (fun _ => True) related) {projects : List π}
    (rel : related state twin) :
    related (projects.foldl (fun state project => state.clear readers project) state)
      (projects.foldl (fun twin project => twin.clear readers' project) twin) := by
  induction projects generalizing state twin with
  | nil => exact rel
  | cons project rest ih => exact ih (h.clear state twin project trivial rel)

variable {request : Request π} {answer? : Option Answer}

/-- What is requested of a project has the same answer from both. -/
theorem perform_of_addressed {key : κ}
    (h : Couples readers readers' (fun project => readers.key project = key) related)
    (addressed : request.AddressedTo readers key) (rel : related state twin)
    (performed : state.perform readers request = some (answer?, state')) :
    ∃ twin', twin.perform readers' request = some (answer?, twin') ∧ related state' twin' := by
  cases request with
  | ask project question cleanup =>
    obtain ⟨⟨answer, state₁⟩, asked, performed⟩ := Option.bind_eq_some_iff.mp performed
    cases performed
    obtain ⟨twin', asked', rel'⟩ := h.ask addressed rel asked
    exact ⟨twin', by simp [State.perform, asked'], rel'⟩
  | cleanup project =>
    cases performed
    exact ⟨_, rfl, h.cleanup state twin project addressed rel⟩
  | clear project =>
    cases performed
    exact ⟨_, rfl, h.clear state twin project addressed rel⟩
  | clearAll => exact absurd addressed id

/-- If both know the same projects, every request has the same answer from both. -/
theorem perform (h : Couples readers readers' (fun _ => True) related)
    (known : ∀ state twin, related state twin → state.knownProjects = twin.knownProjects)
    (rel : related state twin)
    (performed : state.perform readers request = some (answer?, state')) :
    ∃ twin', twin.perform readers' request = some (answer?, twin') ∧ related state' twin' := by
  cases request with
  | ask project | cleanup project | clear project =>
    have own : Couples readers readers' (fun other => readers.key other = readers.key project)
        related := h.mono fun _ _ => trivial
    exact own.perform_of_addressed rfl rel performed
  | clearAll =>
    cases performed
    refine ⟨_, rfl, ?_⟩
    rw [State.clearAll, State.clearAll, ← known state twin rel]
    exact h.foldl_clear rel

/-- So has every run of requests. -/
theorem run (h : Couples readers readers' (fun _ => True) related)
    (known : ∀ state twin, related state twin → state.knownProjects = twin.knownProjects)
    (rel : related state twin) {requests : List (Request π)} {answers : List (Option Answer)}
    (ran : state.run readers requests = some (answers, state')) :
    ∃ twin', twin.run readers' requests = some (answers, twin') ∧ related state' twin' := by
  induction requests generalizing state twin answers with
  | nil =>
    cases ran
    exact ⟨twin, rfl, rel⟩
  | cons request rest ih =>
    obtain ⟨⟨answer?, state₁⟩, performed, ran⟩ := Option.bind_eq_some_iff.mp ran
    obtain ⟨⟨answers', state₂⟩, ran', ran⟩ := Option.bind_eq_some_iff.mp ran
    cases ran
    obtain ⟨twin₁, performed', rel₁⟩ := h.perform known rel performed
    obtain ⟨twin₂, ran'', rel₂⟩ := ih rel₁ ran'
    exact ⟨twin₂, by simp [State.run, performed', ran''], rel₂⟩

end Couples

end TypeLineage.Engine
