import TypeLineage.Proofs.Walk.Mirror
import Mathlib.Logic.Function.Basic

/-!
# Walks that never end

A search of interfaces takes the fact on top of its stack first, which is the last one that was put
there. So if every fact of a chain declares the next name of the chain last, and no name comes
twice, the search follows the chain and never comes to what waits below it on the stack. It has no
result then, whatever is declared down there.
-/

namespace TypeLineage.Engine

open Hierarchy Look

variable {σ : Type} {look : Look σ} {pass : Pass} {target : TypeName} {inv : σ → Prop}
  {facts : Facts} {chain : Nat → TypeName} {fact : Fact} {met met' : Met} {state state' : σ}

/-- A fact of a chain: it declares the next name of the chain last, no name of the chain before it,
and not the target. -/
structure Links (chain : Nat → TypeName) (target : TypeName) (index : Nat) (fact : Fact) :
    Prop where
  /-- The next name comes last. -/
  last : ∃ front, fact.interfaces = front ++ [chain (index + 1)] ∧ ∀ i, chain i ∉ front
  /-- The target is not declared. -/
  undeclared : fact.declares target = false

/-- A chain of names without end. -/
structure Endless (facts : Facts) (target : TypeName) (chain : Nat → TypeName) : Prop where
  /-- No name comes twice. -/
  injective : Function.Injective chain
  /-- Every name has a fact, which leads to the next name. -/
  links : ∀ index, ∃ fact, facts (chain index) = some fact ∧ Links chain target index fact

/-- A search has got to an index of the chain: the fact on top is the one there, and no later name
has been met. -/
def Follows (chain : Nat → TypeName) (target : TypeName) (index : Nat) (stack : List Fact)
    (met : Met) : Prop :=
  (∃ fact rest, stack = fact :: rest ∧ Links chain target index fact) ∧
    ∀ later, index < later → chain later ∉ met.interfaces

theorem Links.interfaces_ne_nil {index : Nat} (h : Links chain target index fact) :
    fact.interfaces ≠ [] := by
  obtain ⟨front, same, -⟩ := h.last
  simp [same]

/-- The interfaces of a list are met one after the other. -/
theorem meetInterfaces_append (names more : List TypeName) (stack : List Fact) (met : Met)
    (state : σ) :
    meetInterfaces look pass (names ++ more) stack met state =
      let (stack, met, state) := meetInterfaces look pass names stack met state
      meetInterfaces look pass more stack met state := by
  fun_induction meetInterfaces look pass names stack met state with
  | case1 => rfl
  | case2 name rest stack met state member ih =>
    rw [List.cons_append, meetInterfaces, if_pos member, ih]
  | case3 name rest stack met state fresh met₁ state₁ looked ih
  | case4 name rest stack met state fresh met₁ upper state₁ looked stack₁ ih =>
    rw [List.cons_append, meetInterfaces, if_neg fresh]
    simp only [looked]
    exact ih

namespace Mirrors

/-- One step along the chain leads to the next index. -/
theorem follows_of_meetInterfaces (h : Mirrors look inv facts)
    (endless : Endless facts target chain) (valid : inv state) {index : Nat}
    (link : Links chain target index fact) {stack stack' : List Fact}
    (unmet : ∀ later, index < later → chain later ∉ met.interfaces)
    (e : meetInterfaces look pass fact.interfaces stack met state = (stack', met', state')) :
    Follows chain target (index + 1) stack' met' := by
  obtain ⟨front, interfaces, apart⟩ := link.last
  obtain ⟨upper, known, link'⟩ := endless.links (index + 1)
  rw [interfaces, meetInterfaces_append] at e
  rcases before : meetInterfaces look pass front stack met state with ⟨stack₁, met₁, state₁⟩
  rw [before] at e
  have unmet₁ : ∀ later, index < later → chain later ∉ met₁.interfaces := by
    intro later above member
    rcases interfaces_of_meetInterfaces before _ member with member | member
    · exact unmet later above member
    · exact apart later member
  have valid₁ : inv state₁ := h.keeps.of_meetInterfaces valid before
  -- What is left is the next name, which has not been met and has a fact.
  have fresh : chain (index + 1) ∉ met₁.interfaces := unmet₁ (index + 1) (by omega)
  rcases looked : look (chain (index + 1)) state₁ with ⟨answer, state₂⟩
  obtain rfl : answer = some upper := (h.of_look valid₁ looked).symm.trans known
  simp only [meetInterfaces, if_neg fresh, looked] at e
  obtain ⟨rfl, rfl, rfl⟩ : upper :: stack₁ = stack' ∧
      met₁.addInterface (chain (index + 1)) = met' ∧ state₂ = state' := by
    simpa [link'.interfaces_ne_nil] using e
  refine ⟨⟨upper, stack₁, rfl, link'⟩, fun later above member => ?_⟩
  rcases List.mem_cons.mp member with same | member
  · have : later = index + 1 := endless.injective same
    omega
  · exact unmet₁ later (by omega) member

/-- A search that follows an endless chain does not come to an end: nothing is ever left of the
stack, and the fact on top never declares the target. -/
theorem not_searchesInterfaces (h : Mirrors look inv facts) (endless : Endless facts target chain)
    (valid : inv state) {index : Nat} {stack : List Fact}
    (follows : Follows chain target index stack met) {isFound : Bool} :
    ¬ SearchesInterfaces look pass target stack met state isFound met' state' := by
  intro searched
  induction searched generalizing index with
  | empty =>
    obtain ⟨⟨_, _, same, _⟩, _⟩ := follows
    cases same
  | declares declared =>
    obtain ⟨⟨_, _, same, link⟩, _⟩ := follows
    cases same
    rw [link.undeclared] at declared
    cases declared
  | next _ e _ ih =>
    obtain ⟨⟨_, _, same, link⟩, unmet⟩ := follows
    cases same
    apply ih (h.keeps.of_meetInterfaces valid e)
    exact h.follows_of_meetInterfaces endless valid link unmet e

/-- **A pass along an endless chain never ends.** If every fact of the chain declares the next name
last, a pass that starts on the chain has no result, even if another interface declared on the way
would lead to the target. -/
theorem searchClasses_eq_none (h : Mirrors look inv facts) (endless : Endless facts target chain)
    (valid : inv state) (index : Nat) :
    searchClasses look pass target (some (chain index)) {} state = none := by
  rcases searched : searchClasses look pass target (some (chain index)) {} state with
    _ | ⟨verdict, state'⟩
  · rfl
  · exfalso
    obtain ⟨fact, known, link⟩ := endless.links index
    have follows : Follows chain target index [fact] (Met.addClass {} (chain index)) :=
      ⟨⟨fact, [], rfl, link⟩, fun later _ member => by cases member⟩
    obtain ⟨met', course⟩ := SearchesClasses.of_eq searched
    cases course with
    | again member => cases member
    | unknown _ looked => cases known.symm.trans (h.of_look valid looked)
    | found _ looked searched | next _ looked searched _ =>
      obtain rfl := Option.some.inj (known.symm.trans (h.of_look valid looked))
      exact h.not_searchesInterfaces endless (h.keeps.of_look valid looked) follows searched

end Mirrors

end TypeLineage.Engine
