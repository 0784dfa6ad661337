import TypeLineage.Proofs.Engine.Looks
import TypeLineage.Proofs.Engine.Steps

/-!
# One entry for each project

No project has two entries, so a project that is forgotten is forgotten altogether: none of its
facts is left. It follows that over readers that answer from given facts, the engine never comes to
hold anything else.
-/

namespace TypeLineage.Engine

open Hierarchy

variable {π κ ρ ω : Type} [DecidableEq κ] {readers : Readers π κ ρ ω} {state : State π κ ρ ω}

/-- Every known project has one entry, under its own key. -/
structure State.Indexed (readers : Readers π κ ρ ω) (state : State π κ ρ ω) : Prop where
  /-- No key has two entries. -/
  nodup : (state.contexts.map Prod.fst).Nodup
  /-- The key of an entry is that of its project. -/
  key : ∀ entry ∈ state.contexts, readers.key entry.2.project = entry.1

namespace State

omit [DecidableEq κ] in
theorem Indexed.start (world : ω) : (State.start world).Indexed readers :=
  ⟨List.nodup_nil, by simp [State.start]⟩

omit [DecidableEq κ] in
theorem Indexed.congr {state' : State π κ ρ ω} (h : state.Indexed readers)
    (same : state'.contexts = state.contexts) : state'.Indexed readers :=
  ⟨same ▸ h.nodup, same ▸ h.key⟩

/-- The context of a project, known or new, is one of its own. -/
theorem Indexed.key_contextOrNew (h : state.Indexed readers) (project : π) :
    readers.key (state.contextOrNew readers project).project = readers.key project := by
  unfold contextOrNew
  cases known : state.context? readers project with
  | none => rfl
  | some context =>
    obtain ⟨before, after, same, -⟩ := List.lookup_eq_some_iff.mp known
    exact h.key (readers.key project, context) (by simp [same])

theorem Indexed.setContext (h : state.Indexed readers) {project : π} {context : Context π ρ}
    (same : readers.key context.project = readers.key project) :
    (state.setContext readers project context).Indexed readers where
  nodup := nodup_replaceEntry h.nodup _ _
  key entry member := by
    rcases mem_replaceEntry member with rfl | member
    · exact same
    · exact h.key entry member

theorem Indexed.lookCached (h : state.Indexed readers) (project : π) (name : TypeName) :
    (state.lookCached readers project name).2.Indexed readers := by
  have own := h.key_contextOrNew project
  unfold State.lookCached
  cases known : state.context? readers project with
  | none => exact h
  | some context =>
    rw [contextOrNew, known] at own
    exact h.setContext own

theorem Indexed.look (h : state.Indexed readers) (pass : Pass) (project : π) (name : TypeName) :
    (look readers pass project name state).2.Indexed readers := by
  cases pass with
  | cachedOnly => exact h.lookCached project name
  | full =>
    cases cached : state.cached readers project name with
    | some _ => exact look_of_cached cached ▸ h.lookCached project name
    | none =>
      rcases take : state.takeReader readers project (state.contextOrNew readers project) with
        ⟨⟨written, reader⟩, taken⟩
      have taken' := h.congr (takeReader_cases take).1
      rw [Engine.look, lookFull_of_not_cached cached take rfl]
      apply Indexed.setContext
      · exact taken'.congr rfl
      · exact h.key_contextOrNew project

theorem Indexed.cleanup (h : state.Indexed readers) (project : π) :
    (state.cleanup readers project).Indexed readers := by
  have own := h.key_contextOrNew project
  unfold State.cleanup
  split
  · exact h
  case h_2 context known =>
    rw [contextOrNew, known] at own
    split
    · exact h
    · apply Indexed.setContext
      · exact h.congr rfl
      · exact own

theorem contexts_clear (state : State π κ ρ ω) (project : π) :
    (state.clear readers project).contexts =
      if (state.context? readers project).isSome then
        removeEntry (readers.key project) state.contexts
      else state.contexts := by
  unfold clear
  split
  case h_1 known => simp [known]
  case h_2 context known =>
    split <;> simp [known]

theorem Indexed.clear (h : state.Indexed readers) (project : π) :
    (state.clear readers project).Indexed readers := by
  have sublist : (state.clear readers project).contexts.Sublist state.contexts := by
    rw [contexts_clear]
    split
    · exact removeEntry_sublist _ _
    · exact .refl _
  exact ⟨h.nodup.sublist (sublist.map Prod.fst),
    fun entry member => h.key entry (sublist.subset member)⟩

/-- Nothing is left of a project that has been forgotten. -/
theorem Indexed.context?_clear (h : state.Indexed readers) (project : π) :
    (state.clear readers project).context? readers project = none := by
  unfold context?
  rw [contexts_clear]
  split
  · exact lookup_removeEntry h.nodup _
  case isFalse unknown => exact Option.not_isSome_iff_eq_none.mp unknown

theorem Indexed.cached_clear (h : state.Indexed readers) (project other : π) :
    (state.clear readers project).cached readers other =
      if readers.key other = readers.key project then fun _ => none
      else state.cached readers other := by
  split
  case isTrue same =>
    rw [cached_congr _ same]
    funext name
    simp [cached, h.context?_clear project]
  case isFalse differs => exact cached_clear_of_ne readers state project differs

end State

/-! ### Readers that answer from given facts -/

theorem preserves_coherent {facts : Facts} (answers : readers.AnswerFrom facts) :
    Preserves readers (fun _ => True) fun state =>
      state.Indexed readers ∧ state.Coherent readers facts where
  look pass project name state h :=
    ⟨h.1.look pass project name, coherent_look answers pass project name state h.2⟩
  cleanup state project h := by
    refine ⟨h.1.cleanup project, fun other => ?_⟩
    rw [State.cached_cleanup]
    exact h.2 other
  clear state project _ h := by
    refine ⟨h.1.clear project, fun other name fact known => ?_⟩
    rw [h.1.cached_clear] at known
    split at known
    · simp at known
    · exact h.2 other name fact known
  drift _ _ h := ⟨h.1.congr rfl, h.2⟩

/-- All that an engine ever holds is so by the facts that its readers answer from. -/
theorem Reachable.coherent {facts : Facts} (answers : readers.AnswerFrom facts)
    (reachable : Reachable readers state) : state.Coherent readers facts :=
  have start : ∀ world, (State.start world).Coherent readers facts := fun world _ _ _ known => by
    simp [State.cached, State.context?, State.start] at known
  ((preserves_coherent answers).of_reachable reachable fun world => ⟨.start world, start world⟩).2

end TypeLineage.Engine
