import TypeLineage.Proofs.Walk.Course
import Mathlib.Data.Finset.Card
import Mathlib.Data.Finset.SDiff

/-!
# Walks that end

A walk ends if all it can meet is one of finitely many names: every class and every interface that
it looks up is a name that it had not met, so there is one name less to meet. A fact is put on the
stack at the price of a name that is met then, so the stack does not outgrow what is left.
Superclasses are looked up for classes only, so those of interfaces are of no account.
-/

namespace TypeLineage.Engine

open Look

variable {σ : Type} {look : Look σ} {pass : Pass} {target : TypeName}
  {inv : σ → Prop} {classes names : Finset TypeName}

/-- The fact names only such types. -/
structure Within (names : Finset TypeName) (fact : Fact) : Prop where
  /-- The superclass. -/
  superclass : ∀ upper, fact.superclass = some upper → upper ∈ names
  /-- The interfaces. -/
  interfaces : ∀ name ∈ fact.interfaces, name ∈ names

/-- Asked for one of the names, looks give facts that name no others while the invariant lasts. -/
structure Confined (look : Look σ) (inv : σ → Prop)
    (names : Finset TypeName) : Prop where
  /-- A look keeps the invariant. -/
  keeps : Keeps look inv
  /-- A look leads to no other names. -/
  within : ∀ name state fact, inv state → name ∈ names → (look name state).1 = some fact →
    Within names fact

/-- All interfaces that the fact declares are among the names. -/
def DeclaresWithin (names : Finset TypeName) (fact : Fact) : Prop :=
  ∀ name ∈ fact.interfaces, name ∈ names

/-- While the invariant lasts, looks lead from classes along superclasses to classes only, and from
names along interfaces to names only. -/
structure Bounded (look : Look σ) (inv : σ → Prop) (classes names : Finset TypeName) : Prop where
  /-- A look keeps the invariant. -/
  keeps : Keeps look inv
  /-- The classes are names. -/
  subset : classes ⊆ names
  /-- The superclass of a class is a class. -/
  superclass : ∀ name state fact, inv state → name ∈ classes → (look name state).1 = some fact →
    ∀ upper, fact.superclass = some upper → upper ∈ classes
  /-- The interfaces of a name are names. -/
  interfaces : ∀ name state fact, inv state → name ∈ names → (look name state).1 = some fact →
    DeclaresWithin names fact

theorem Confined.bounded (h : Confined look inv names) : Bounded look inv names names where
  keeps := h.keeps
  subset := Finset.Subset.refl names
  superclass name state fact valid member given :=
    (h.within name state fact valid member given).superclass
  interfaces name state fact valid member given :=
    (h.within name state fact valid member given).interfaces

/-- How many of the names have not been met. -/
def unmet (names : Finset TypeName) (met : List TypeName) : Nat :=
  (names \ met.toFinset).card

theorem unmet_cons_lt {name : TypeName} {met : List TypeName} (member : name ∈ names)
    (fresh : name ∉ met) : unmet names (name :: met) < unmet names met := by
  apply Finset.card_lt_card
  rw [Finset.ssubset_iff_of_subset]
  · exact ⟨name, by simp [member, fresh], by simp⟩
  · intro other
    simp
    tauto

namespace Bounded

/-- The stack grows by no more than the number of interfaces met. -/
theorem of_meetInterfaces (h : Bounded look inv classes names) {list : List TypeName}
    {stack stack' : List Fact} {met met' : Met} {state state' : σ} (valid : inv state)
    (members : ∀ name ∈ list, name ∈ names) (stacked : ∀ fact ∈ stack, DeclaresWithin names fact)
    (e : meetInterfaces look pass list stack met state = (stack', met', state')) :
    (∀ fact ∈ stack', DeclaresWithin names fact) ∧
      unmet names met'.interfaces + stack'.length ≤ unmet names met.interfaces + stack.length := by
  fun_induction meetInterfaces look pass list stack met state with
  | case1 =>
    cases e
    exact ⟨stacked, le_rfl⟩
  | case2 name rest stack met state _ ih =>
    exact ih valid (fun other member => members other (.tail _ member)) stacked e
  | case3 name rest stack met state fresh met₁ state₁ looked ih =>
    have fewer := unmet_cons_lt (members name (.head _)) fresh
    obtain ⟨stacked', bound⟩ := ih (h.keeps.of_look valid looked)
      (fun other member => members other (.tail _ member)) stacked e
    refine ⟨stacked', ?_⟩
    simp only [met₁, Met.interfaces_lacking, Met.interfaces_addInterface] at bound
    omega
  | case4 name rest stack met state fresh met₁ upper state₁ looked stack₁ ih =>
    have fewer := unmet_cons_lt (members name (.head _)) fresh
    have upperWithin :=
      h.interfaces name state upper valid (members name (.head _)) (by rw [looked])
    have stacked₁ : ∀ fact ∈ stack₁, DeclaresWithin names fact := by
      intro fact member
      simp only [stack₁] at member
      split at member
      · exact stacked fact member
      · rcases List.mem_cons.mp member with rfl | member
        · exact upperWithin
        · exact stacked fact member
    have longer : stack₁.length ≤ stack.length + 1 := by
      simp only [stack₁]
      split <;> simp
    obtain ⟨stacked', bound⟩ := ih (h.keeps.of_look valid looked)
      (fun other member => members other (.tail _ member)) stacked₁ e
    refine ⟨stacked', ?_⟩
    simp only [met₁, Met.interfaces_addInterface] at bound
    omega

/-- A search of interfaces ends. -/
theorem exists_searchesInterfaces (h : Bounded look inv classes names) {stack : List Fact}
    {met : Met} {state : σ} (valid : inv state)
    (stacked : ∀ fact ∈ stack, DeclaresWithin names fact) :
    ∃ isFound met' state',
      SearchesInterfaces look pass target stack met state isFound met' state' := by
  -- Every step takes a fact off the stack, and what it puts there was paid for by names met.
  induction bound : unmet names met.interfaces + stack.length using Nat.strong_induction_on
    generalizing stack met state with
  | _ n ih =>
    cases stack with
    | nil => exact ⟨_, _, _, .empty⟩
    | cons fact stack =>
      cases declared : fact.declares target with
      | true => exact ⟨_, _, _, .declares declared⟩
      | false =>
        rcases e : meetInterfaces look pass fact.interfaces stack met state with
          ⟨stack₁, met₁, state₁⟩
        obtain ⟨stacked₁, bound₁⟩ := h.of_meetInterfaces valid (stacked fact (.head _))
          (fun other member => stacked other (.tail _ member)) e
        have fewer : unmet names met₁.interfaces + stack₁.length < n := by
          rw [← bound, List.length_cons]
          omega
        obtain ⟨isFound, met', state', rest⟩ :=
          ih _ fewer (h.keeps.of_meetInterfaces valid e) stacked₁ rfl
        exact ⟨isFound, met', state', .next declared e rest⟩

/-- A pass ends. -/
theorem exists_searchesClasses (h : Bounded look inv classes names) {name? : Option TypeName}
    {met : Met} {state : σ} (valid : inv state)
    (member : ∀ name, name? = some name → name ∈ classes) :
    ∃ verdict met' state',
      SearchesClasses look pass target name? met state verdict met' state' := by
  induction bound : unmet classes met.classes using Nat.strong_induction_on
    generalizing name? met state with
  | _ n ih =>
    cases name? with
    | none => exact ⟨_, _, _, .top⟩
    | some name =>
      by_cases fresh : name ∈ met.classes
      · exact ⟨_, _, _, .again fresh⟩
      · rcases looked : look name state with ⟨fact?, state₁⟩
        cases fact? with
        | none => exact ⟨_, _, _, .unknown fresh looked⟩
        | some fact =>
          have valid₁ := h.keeps.of_look valid looked
          have given : (look name state).1 = some fact := by rw [looked]
          have above := h.superclass name state fact valid (member name rfl) given
          have declared := h.interfaces name state fact valid (h.subset (member name rfl)) given
          have stacked : ∀ upper ∈ [fact], DeclaresWithin names upper := by simpa using declared
          obtain ⟨isFound, met₂, state₂, searched⟩ := h.exists_searchesInterfaces valid₁ stacked
          cases isFound with
          | true => exact ⟨_, _, _, .found fresh looked searched⟩
          | false =>
            have fewer : unmet classes met₂.classes < n := by
              rw [← bound, searched.classes_eq, Met.classes_addClass]
              exact unmet_cons_lt (member name rfl) fresh
            obtain ⟨verdict, met', state', rest⟩ :=
              ih _ fewer (h.keeps.of_searchesInterfaces valid₁ searched) above rfl
            exact ⟨verdict, met', state', .next fresh looked searched rest⟩

/-- A climb ends. -/
theorem exists_climbs (h : Bounded look inv classes names) {name? : Option TypeName}
    {met : List TypeName} {state : σ} (valid : inv state)
    (member : ∀ name, name? = some name → name ∈ classes) :
    ∃ isMet state', Climbs look target name? met state isMet state' := by
  induction bound : unmet classes met using Nat.strong_induction_on
    generalizing name? met state with
  | _ n ih =>
    cases name? with
    | none => exact ⟨_, _, .top⟩
    | some name =>
      by_cases same : name = target
      · subst same
        exact ⟨_, _, .here⟩
      · by_cases fresh : name ∈ met
        · exact ⟨_, _, .again same fresh⟩
        · rcases looked : look name state with ⟨fact?, state₁⟩
          cases fact? with
          | none => exact ⟨_, _, .unknown same fresh looked⟩
          | some fact =>
            have above := h.superclass name state fact valid (member name rfl) (by rw [looked])
            have fewer : unmet classes (name :: met) < n := by
              rw [← bound]
              exact unmet_cons_lt (member name rfl) fresh
            obtain ⟨isMet, state', rest⟩ :=
              ih _ fewer (h.keeps.of_look valid looked) above rfl
            exact ⟨isMet, state', .next same fresh looked rest⟩

/-- A pass that starts with a class has a verdict. -/
theorem exists_pass (h : Bounded look inv classes names) (pass : Pass) (target : TypeName)
    {name : TypeName} {state : σ} (valid : inv state) (member : name ∈ classes) :
    ∃ verdict state', searchClasses look pass target (some name) {} state =
      some (verdict, state') := by
  have start : ∀ first, some name = some first → first ∈ classes := by simpa using member
  obtain ⟨verdict, met', state', course⟩ := h.exists_searchesClasses valid start
  exact ⟨verdict, state', course.eq⟩

/-- A climb that starts with a class has an outcome. -/
theorem exists_climb (h : Bounded look inv classes names) (target : TypeName) {name : TypeName}
    {state : σ} (valid : inv state) (member : name ∈ classes) :
    ∃ isMet state', climb look target (some name) [] state = some (isMet, state') := by
  have start : ∀ first, some name = some first → first ∈ classes := by simpa using member
  obtain ⟨isMet, state', course⟩ := h.exists_climbs valid start
  exact ⟨isMet, state', course.eq⟩

end Bounded

/-- A pass that starts with one of the names has a verdict. -/
theorem Confined.exists_pass (h : Confined look inv names) (pass : Pass) (target : TypeName)
    {name : TypeName} {state : σ} (valid : inv state) (member : name ∈ names) :
    ∃ verdict state', searchClasses look pass target (some name) {} state =
      some (verdict, state') :=
  h.bounded.exists_pass pass target valid member

/-- A climb that starts with one of the names has an outcome. -/
theorem Confined.exists_climb (h : Confined look inv names) (target : TypeName) {name : TypeName}
    {state : σ} (valid : inv state) (member : name ∈ names) :
    ∃ isMet state', climb look target (some name) [] state = some (isMet, state') :=
  h.bounded.exists_climb target valid member

end TypeLineage.Engine
