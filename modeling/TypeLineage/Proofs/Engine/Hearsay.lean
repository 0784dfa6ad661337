import TypeLineage.Proofs.Engine.Served
import Mathlib.Data.Set.Finite.Basic

/-!
# What readers may tell

Readers may answer as they like, differently each time. Still all that the engine knows of a project
it has been told by a reader that was made for that project, and no look leads to a name that such
readers do not tell of. So if they can tell of finitely many names from a type on, every question
about the type is answered, whatever circles they draw.
-/

namespace TypeLineage.Engine

open Relation Hierarchy Look

variable {π κ ρ ω : Type}

namespace Readers

variable (readers : Readers π κ ρ ω) (key : κ)

/-- A reader that was made for a project with the key, in whatever state it comes to by being asked.
-/
inductive MadeFor : ρ → Prop where
  /-- It is made. -/
  | create (project : π) (world : ω) (own : readers.key project = key) :
      MadeFor (readers.create project world).1
  /-- It is asked. -/
  | read {reader : ρ} (made : MadeFor reader) (name : TypeName) (world : ω) :
      MadeFor (readers.read reader name world).2.1

/-- A reader made for the project may give this as the fact of the type. -/
def MayTell (name : TypeName) (fact : Fact) : Prop :=
  ∃ reader world, readers.MadeFor key reader ∧ (readers.read reader name world).1 = some fact

/-- A fact that may be given for the lower name names the upper one as superclass. -/
def MayAscend (lower upper : TypeName) : Prop :=
  ∃ fact, readers.MayTell key lower fact ∧ fact.superclass = some upper

/-- A fact that may be given for the lower name declares the upper one as interface. -/
def MayCross (lower upper : TypeName) : Prop :=
  ∃ fact, readers.MayTell key lower fact ∧ upper ∈ fact.interfaces

/-- Facts that may be given lead from the type to the name, along superclasses first and along
interfaces then. -/
def MayReach (type name : TypeName) : Prop :=
  ∃ cls, ReflTransGen (readers.MayAscend key) type cls ∧
    ReflTransGen (readers.MayCross key) cls name

/-- Readers made for the project always answer from these facts. -/
def TellFrom (facts : Facts) : Prop :=
  ∀ reader name world, readers.MadeFor key reader → (readers.read reader name world).1 = facts name

end Readers

variable [DecidableEq κ] {readers : Readers π κ ρ ω} {state state' : State π κ ρ ω} {project : π}
  {name : TypeName} {fact : Fact}

/-- All that is held for a project was told by readers made for it, and so is the one in use. -/
structure State.Told (readers : Readers π κ ρ ω) (state : State π κ ρ ω) : Prop
    extends State.Labelled readers state where
  /-- The reader in use was made for the project. -/
  made : ∀ project written reader, state.held readers project = some (written, reader) →
    readers.MadeFor (readers.key project) reader
  /-- The cached facts may be told. -/
  told : ∀ project name fact, state.cached readers project name = some fact →
    readers.MayTell (readers.key project) name fact

namespace State

theorem Told.start (world : ω) : (State.start world).Told readers where
  toLabelled := .start world
  made _ _ _ inUse := by simp [held, context?, State.start] at inUse
  told _ _ _ known := by simp [cached, context?, State.start] at known

/-- However a reader is come by, it was made for the project. -/
theorem Told.made_of_takes (h : state.Told readers) {made : List (Event π)} {written : π}
    {reader : ρ} {world : ω} (takes : Takes readers state project made written reader world) :
    readers.MadeFor (readers.key project) reader := by
  cases takes with
  | held inUse => exact h.made project written reader inUse
  | made => exact .create project state.world rfl

/-- What is not cached is told by a reader made for the project. -/
theorem Told.exists_reader (h : state.Told readers)
    (unknown : state.cached readers project name = none) :
    ∃ reader world, readers.MadeFor (readers.key project) reader ∧
      (state.lookFull readers project name).1 = (readers.read reader name world).1 := by
  obtain ⟨made, written, reader, world, takes⟩ := exists_takes readers state project
  rcases read : readers.read reader name world with ⟨answer, reader', world'⟩
  refine ⟨reader, world, h.made_of_takes takes, ?_⟩
  rw [takes.lookFull unknown read, read]

theorem Told.made_of_handles (h : state.Told readers)
    (handles : Handles readers project state state') :
    ∀ other written reader, state'.held readers other = some (written, reader) →
      readers.MadeFor (readers.key other) reader := by
  refine handles.all_held (p := fun key _ reader => readers.MadeFor key reader) ?_ ?_ h.made
  · exact fun project name world world' => .read (.create project world rfl) name world'
  · exact fun key _ reader name world made => made.read name world

/-- What a look gives may be told. -/
theorem Told.mayTell_of_look (h : state.Told readers) {pass : Pass}
    (given : (look readers pass project name state).1 = some fact) :
    readers.MayTell (readers.key project) name fact := by
  cases known : state.cached readers project name with
  | some found =>
    rw [look_of_cached known, lookCached_fst] at given
    exact h.told project name fact given
  | none =>
    cases pass with
    | cachedOnly => simp [look, lookCached_fst, known] at given
    | full =>
      obtain ⟨reader, world, made, same⟩ := h.exists_reader known
      exact ⟨reader, world, made, same.symm.trans given⟩

theorem Told.told_look (h : state.Told readers) (pass : Pass) (project other : π) (name : TypeName)
    {type : TypeName}
    (known : (look readers pass project name state).2.cached readers other type = some fact) :
    readers.MayTell (readers.key other) type fact := by
  cases cached : state.cached readers project name with
  | some found =>
    rw [look_of_cached cached, cached_lookCached] at known
    exact h.told other type fact known
  | none =>
    cases pass with
    | cachedOnly =>
      rw [look, cached_lookCached] at known
      exact h.told other type fact known
    | full =>
      have given := known
      rw [look, cached_lookFull_of_not_cached cached] at given
      split at given
      case isTrue here =>
        obtain ⟨same, rfl⟩ := here
        rw [same]
        have looked : (look readers .full project type state).1 = some fact := given
        exact h.mayTell_of_look looked
      case isFalse => exact h.told other type fact given

end State

open State

theorem preserves_told : Preserves readers (fun _ => True) (State.Told readers) where
  look pass project name state h := by
    refine ⟨preserves_labelled.look pass project name state h.toLabelled,
      h.made_of_handles (handles_look readers state project pass name), ?_⟩
    exact fun other type fact known => h.told_look pass project other name known
  cleanup state project h := by
    refine ⟨preserves_labelled.cleanup state project h.toLabelled,
      h.made_of_handles (handles_cleanup readers state project), fun other => ?_⟩
    rw [cached_cleanup]
    exact h.told other
  clear state project permitted h := by
    refine ⟨preserves_labelled.clear state project permitted h.toLabelled,
      h.made_of_handles (h.handles_clear project), fun other name fact known => ?_⟩
    rw [h.cached_clear] at known
    split at known
    · simp at known
    · exact h.told other name fact known
  drift _ _ h := ⟨⟨h.congr rfl, h.label⟩, h.made, h.told⟩

/-- All that the engine knows in a state that it can come to, it was told. -/
theorem Reachable.told (reachable : Reachable readers state) : state.Told readers :=
  preserves_told.of_reachable reachable .start

/-- Looks that may read give what the readers always answer. -/
theorem mirrors_told {facts : Facts} (tell : readers.TellFrom (readers.key project) facts) :
    Mirrors (look readers .full project) (State.Told readers) facts where
  keeps := preserves_told.look .full project
  mirrors name state h := by
    cases known : state.cached readers project name with
    | some fact =>
      obtain ⟨reader, world, made, given⟩ := h.told project name fact known
      rw [look_of_cached known, lookCached_fst, known, ← given, tell reader name world made]
    | none =>
      obtain ⟨reader, world, made, same⟩ := h.exists_reader known
      rw [look, same, tell reader name world made]

/-! ### Questions come to an answer -/

/-- If finitely many names may be reached, looks lead to finitely many names. -/
theorem exists_bounded {type : TypeName}
    (finite : {name | readers.MayReach (readers.key project) type name}.Finite) :
    ∃ classes names, type ∈ classes ∧
      Bounded (look readers .full project) (State.Told readers) classes names := by
  have upwards : {cls | ReflTransGen (readers.MayAscend (readers.key project)) type cls} ⊆
      {name | readers.MayReach (readers.key project) type name} :=
    fun cls up => ⟨cls, up, .refl⟩
  refine ⟨(finite.subset upwards).toFinset, finite.toFinset, ?_, ?_⟩
  · simp [ReflTransGen.refl]
  · refine ⟨preserves_told.look .full project, by simpa using upwards, ?_, ?_⟩
    · simp only [Set.Finite.mem_toFinset, Set.mem_ofPred_eq]
      intro name state fact told up given upper above
      exact up.tail ⟨fact, told.mayTell_of_look given, above⟩
    · simp only [DeclaresWithin, Set.Finite.mem_toFinset, Set.mem_ofPred_eq]
      rintro name state fact told ⟨cls, up, across⟩ given upper declared
      exact ⟨cls, up, across.tail ⟨fact, told.mayTell_of_look given, declared⟩⟩

omit [DecidableEq κ] in
/-- Over a table finitely many names may be reached. -/
theorem finite_mayReach {key : κ} {table : FactTable} (tell : readers.TellFrom key table.find?)
    (type : TypeName) : {name | readers.MayReach key type name}.Finite := by
  have within : ∀ lower fact, readers.MayTell key lower fact →
      Within (named table.entries) fact := by
    rintro lower fact ⟨reader, world, made, given⟩
    exact within_named ((tell reader lower world made).symm.trans given)
  refine (insert type (named table.entries)).finite_toSet.subset ?_
  rintro name ⟨cls, up, across⟩
  have cls_mem : cls ∈ insert type (named table.entries) := by
    rcases up.cases_tail with rfl | ⟨lower, -, fact, told, above⟩
    · exact Finset.mem_insert_self _ _
    · exact Finset.mem_insert_of_mem ((within lower fact told).superclass cls above)
  rcases across.cases_tail with rfl | ⟨lower, -, fact, told, declared⟩
  · exact cls_mem
  · exact Finset.mem_insert_of_mem ((within lower fact told).interfaces name declared)

/-- If finitely many names may be reached from the type of a question, it is answered. -/
theorem State.Told.exists_ask (h : state.Told readers) (question : Question) (cleanup : Bool)
    (finite :
      {name | readers.MayReach (readers.key project) (.ofString question.type) name}.Finite) :
    ∃ answer after, state.ask readers project question cleanup = some (answer, after) := by
  obtain ⟨classes, names, member, bounded⟩ := exists_bounded finite
  have keeps : Keeps (look readers .cachedOnly project) (State.Told readers) :=
    preserves_told.look .cachedOnly project
  obtain ⟨answer, after, answered⟩ := exists_answer_of_bounded keeps bounded h question member
  exact ⟨answer, _, ask_of_answer answered⟩

end TypeLineage.Engine
