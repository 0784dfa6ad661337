import TypeLineage.Proofs.Engine.View
import TypeLineage.Proofs.Walk.Mirror
import TypeLineage.Proofs.Walk.Simulation

/-!
# The looks of the engine

Both passes look at facts that are remembered, so what is proved of walks over such looks holds of
the searches of the engine. What a reader answers is free here, unless it is said to answer from
given facts or to know no more than given names.
-/

namespace TypeLineage.Engine

open Hierarchy State Look

variable {π κ ρ ω : Type} [DecidableEq κ] {readers : Readers π κ ρ ω}

/-- The readers always answer from these facts. -/
def Readers.AnswerFrom (readers : Readers π κ ρ ω) (facts : Facts) : Prop :=
  ∀ reader name world, (readers.read reader name world).1 = facts name

/-- Asked for one of the names, the readers give facts that name no others, whatever else may change
in their answers. -/
def Readers.StayWithin (readers : Readers π κ ρ ω) (names : Finset TypeName) : Prop :=
  ∀ reader name world fact, name ∈ names → (readers.read reader name world).1 = some fact →
    Within names fact

/-- All that is cached is so by these facts. -/
def State.Coherent (readers : Readers π κ ρ ω) (facts : Facts) (state : State π κ ρ ω) : Prop :=
  ∀ project, Grows (state.cached readers project) facts

variable (readers) in
/-- No look takes a cached fact away, from its own project or from another. -/
theorem grows_look (pass : Pass) (project other : π) (name : TypeName) (state : State π κ ρ ω) :
    Grows (state.cached readers other)
      ((look readers pass project name state).2.cached readers other) := by
  intro type fact known
  cases pass with
  | cachedOnly => simpa [look] using known
  | full =>
    simp only [look]
    cases cached : state.cached readers project name with
    | some _ => rwa [lookFull_of_cached cached, cached_lookCached]
    | none =>
      rw [cached_lookFull_of_not_cached cached, if_neg]
      · exact known
      · rintro ⟨same, rfl⟩
        rw [cached_congr state same, cached] at known
        simp at known

theorem look_of_cached {pass : Pass} {project : π} {name : TypeName} {state : State π κ ρ ω}
    {fact : Fact} (known : state.cached readers project name = some fact) :
    look readers pass project name state = state.lookCached readers project name := by
  cases pass with
  | cachedOnly => rfl
  | full => exact lookFull_of_cached known

/-- What is cached after a look was cached before, or a reader has just given it. -/
theorem cached_of_look {pass : Pass} {project other : π} {name type : TypeName}
    {state : State π κ ρ ω} {fact : Fact}
    (known : (look readers pass project name state).2.cached readers other type = some fact) :
    state.cached readers other type = some fact ∨
      type = name ∧ ∃ reader world, (readers.read reader name world).1 = some fact := by
  cases cached : state.cached readers project name with
  | some _ =>
    rw [look_of_cached cached, cached_lookCached] at known
    exact .inl known
  | none =>
    cases pass with
    | cachedOnly =>
      rw [look, cached_lookCached] at known
      exact .inl known
    | full =>
      rw [look, cached_lookFull_of_not_cached cached] at known
      split at known
      case isTrue here =>
        obtain ⟨reader, world, answer⟩ := exists_lookFull_fst cached
        exact .inr ⟨here.2, reader, world, answer.symm.trans known⟩
      case isFalse => exact .inl known

variable (readers) in
/-- Facts that are looked up are cached from then on. -/
theorem remembers_look (pass : Pass) (project : π) :
    Remembers (look readers pass project) (fun _ => True)
      fun state => state.cached readers project where
  keeps _ _ _ := trivial
  retains name state _ := grows_look readers pass project project name state
  learns name state fact _ given := by
    cases known : state.cached readers project name with
    | some _ =>
      rwa [look_of_cached known, cached_lookCached, ← lookCached_fst, ← look_of_cached known]
    | none =>
      cases pass with
      | cachedOnly => simp [look, lookCached_fst, known] at given
      | full => simpa [look, cached_lookFull_of_not_cached known] using given

variable (readers) in
/-- Cached facts are what every later look at them gives. -/
theorem recalls_look (pass : Pass) (project : π) (facts : Facts) :
    Recalls (look readers pass project) (fun state => Grows facts (state.cached readers project))
      facts where
  keeps name state grown := grown.trans (grows_look readers pass project project name state)
  recalls name state fact grown known := by
    rw [look_of_cached (grown _ _ known), lookCached_fst]
    exact grown _ _ known

/-- A look at the cache only gives what is cached, and that does not change by it. -/
theorem mirrors_lookCached (project : π) (facts : Facts) :
    Mirrors (look readers .cachedOnly project)
      (fun state => state.cached readers project = facts) facts where
  keeps name state same := by simpa [look] using same
  mirrors name state same := by rw [look, lookCached_fst, same]

/-- The looks of the second pass do as those of the first wherever these give a fact. -/
theorem agrees_look (project : π) :
    Agrees (look readers .cachedOnly project) (look readers .full project) := by
  intro name state fact state' looked
  have known : state.cached readers project name = some fact := by
    rw [← lookCached_fst]
    simp only [look] at looked
    rw [looked]
  rw [look_of_cached known]
  exact looked

variable (readers) in
/-- What the engine has done is not changed by looks at the cache only. -/
theorem keeps_trace_lookCached (project : π) (trace : List (Event π)) :
    Keeps (look readers .cachedOnly project) fun state => state.trace = trace :=
  fun name state same => by simpa [look] using same

/-- Looks that may read add to what the engine has done, and only that readers are made and asked.
-/
theorem keeps_trace_lookFull (project : π) (trace : List (Event π)) :
    Keeps (look readers .full project) fun state =>
      ∃ events, state.trace = trace ++ events ∧ ∀ event ∈ events, event.isFetch = true := by
  rintro name state ⟨events, same, fetches⟩
  obtain ⟨more, same', fetches'⟩ := trace_lookFull readers state project name
  refine ⟨events ++ more, by simp [look, same', same], fun event member => ?_⟩
  exact (List.mem_append.mp member).elim (fetches event) (fetches' event)

/-! ### Readers that answer from given facts -/

theorem coherent_look {facts : Facts} (answers : readers.AnswerFrom facts) (pass : Pass)
    (project : π) : Keeps (look readers pass project) (State.Coherent readers facts) := by
  intro name state coherent other type fact known
  obtain known | ⟨rfl, reader, world, answer⟩ := cached_of_look known
  · exact coherent other type fact known
  · rw [← answers reader type world, answer]

/-- A look that may read gives what the facts say. -/
theorem mirrors_lookFull {facts : Facts} (answers : readers.AnswerFrom facts) (project : π) :
    Mirrors (look readers .full project) (State.Coherent readers facts) facts where
  keeps := coherent_look answers .full project
  mirrors name state coherent := by
    cases cached : state.cached readers project name with
    | some fact =>
      rw [look_of_cached cached, lookCached_fst, cached, coherent project name fact cached]
    | none =>
      obtain ⟨reader, world, answer⟩ := exists_lookFull_fst cached
      rw [look, answer, answers]

/-! ### Walks that end -/

/-- The names that some facts mention. -/
def named (entries : List (TypeName × Fact)) : Finset TypeName :=
  (entries.flatMap fun entry => entry.2.superclass.toList ++ entry.2.interfaces).toFinset

theorem within_named {entries : List (TypeName × Fact)} {name : TypeName} {fact : Fact}
    (known : entries.lookup name = some fact) : Within (named entries) fact := by
  obtain ⟨before, after, same, -⟩ := List.lookup_eq_some_iff.mp known
  constructor <;> intro other mentioned <;> simp [named, same, mentioned]

theorem Within.mono {names more : Finset TypeName} {fact : Fact} (h : Within names fact)
    (subset : names ⊆ more) : Within more fact :=
  ⟨fun upper edge => subset (h.superclass upper edge),
    fun name declared => subset (h.interfaces name declared)⟩

/-- Over a finite list of facts, looks that answer from it meet finitely many names. -/
theorem Mirrors.exists_names {σ : Type} {look : Look σ} {inv : σ → Prop}
    {entries : List (TypeName × Fact)} (h : Mirrors look inv fun name => entries.lookup name)
    (start : TypeName) : ∃ names, start ∈ names ∧ Confined look inv names :=
  ⟨insert start (named entries), Finset.mem_insert_self _ _, h.confined fun _ _ _ known =>
    (within_named known).mono (Finset.subset_insert _ _)⟩

variable (readers) in
/-- What is cached for a project is a finite list of facts. -/
theorem exists_entries (state : State π κ ρ ω) (project : π) :
    ∃ entries : List (TypeName × Fact),
      state.cached readers project = fun name => entries.lookup name := by
  cases known : state.context? readers project with
  | none => exact ⟨[], by funext name; simp [cached, known]⟩
  | some context => exact ⟨context.cache.entries, cached_of_context? known⟩

variable (readers) in
/-- Looks at the cache only meet finitely many names. -/
theorem exists_names_of_cached (state : State π κ ρ ω) (project : π) (start : TypeName) :
    ∃ names, start ∈ names ∧ Confined (look readers .cachedOnly project)
      (fun state' => state'.cached readers project = state.cached readers project) names := by
  obtain ⟨entries, same⟩ := exists_entries readers state project
  have mirrors : Mirrors (look readers .cachedOnly project)
      (fun state' => state'.cached readers project = state.cached readers project)
      fun name => entries.lookup name := same ▸ mirrors_lookCached project _
  exact mirrors.exists_names start

variable (readers) in
/-- A pass over the cache only has a verdict. -/
theorem exists_cachedPass (state : State π κ ρ ω) (project : π) (name target : TypeName) :
    ∃ verdict state',
      searchPass readers .cachedOnly project name target state = some (verdict, state') := by
  obtain ⟨names, member, confined⟩ := exists_names_of_cached readers state project name
  exact confined.exists_pass .cachedOnly target rfl member

variable (readers) in
/-- A climb over the cache only has an outcome. -/
theorem exists_cachedClimb (state : State π κ ρ ω) (project : π) (name target : TypeName) :
    ∃ isMet state',
      climb (look readers .cachedOnly project) target (some name) [] state =
        some (isMet, state') := by
  obtain ⟨names, member, confined⟩ := exists_names_of_cached readers state project name
  exact confined.exists_climb target rfl member

/-- Looks that may read stay within finitely many names if cache and readers do. -/
theorem confined_lookFull {names : Finset TypeName} (stay : readers.StayWithin names)
    (project : π) :
    Confined (look readers .full project)
      (fun state => ∀ name ∈ names, ∀ fact, state.cached readers project name = some fact →
        Within names fact) names where
  keeps name state closed other member fact known := by
    obtain known | ⟨rfl, reader, world, answer⟩ := cached_of_look known
    · exact closed other member fact known
    · exact stay reader other world fact member answer
  within name state fact closed member given := by
    cases cached : state.cached readers project name with
    | some known =>
      rw [look_of_cached cached, lookCached_fst] at given
      exact closed name member fact given
    | none =>
      obtain ⟨reader, world, answer⟩ := exists_lookFull_fst cached
      exact stay reader name world fact member (by rw [← given, look, answer])

/-! ### The two passes -/

/-- If the cache decides, there is no second pass. -/
theorem implementsInterface_of_decided {state state₁ : State π κ ρ ω} {project : π}
    {name target : TypeName} {verdict : Verdict}
    (cachedPass : searchPass readers .cachedOnly project name target state = some (verdict, state₁))
    (decided : verdict ≠ .inconclusive) :
    state.implementsInterface readers project name target = some (verdict == .found, state₁) := by
  unfold State.implementsInterface
  cases verdict with
  | found | absent => rw [cachedPass]; rfl
  | inconclusive => exact absurd rfl decided

/-- If it does not, the second pass does. -/
theorem implementsInterface_of_inconclusive {state state₁ state₂ : State π κ ρ ω} {project : π}
    {name target : TypeName} {verdict : Verdict}
    (cachedPass : searchPass readers .cachedOnly project name target state =
      some (.inconclusive, state₁))
    (fullPass : searchPass readers .full project name target state₁ = some (verdict, state₂)) :
    state.implementsInterface readers project name target = some (verdict == .found, state₂) := by
  unfold State.implementsInterface
  rw [cachedPass]
  show (searchPass readers .full project name target state₁).bind _ = _
  rw [fullPass]
  rfl

end TypeLineage.Engine
