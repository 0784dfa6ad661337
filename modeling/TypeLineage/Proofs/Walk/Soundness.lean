import TypeLineage.Proofs.Hierarchy
import TypeLineage.Proofs.Walk.Course
import Mathlib.Data.List.Basic

/-!
# What a walk finds is so

Looks that remember the facts they give: what has been looked up is known from then on. When a walk
over such looks finds its target, the facts known at its end bear it out, whatever the looks would
have answered at other times.
-/

namespace TypeLineage.Engine

open Relation Hierarchy Look

variable {σ : Type} {look : Look σ} {pass : Pass} {target : TypeName}
  {inv : σ → Prop} {knows : σ → Facts}

/-- Looks that remember: while the invariant lasts, a fact that is given is known from then on. -/
structure Remembers (look : Look σ) (inv : σ → Prop) (knows : σ → Facts) :
    Prop where
  /-- A look keeps the invariant. -/
  keeps : Keeps look inv
  /-- What was known stays known. -/
  retains : ∀ name state, inv state → Grows (knows state) (knows (look name state).2)
  /-- The fact that is given is known afterwards. -/
  learns : ∀ name state fact, inv state → (look name state).1 = some fact →
    knows (look name state).2 name = some fact

namespace Remembers

/-- Together with the invariant, looks keep all that was known at some time. -/
theorem keeps_grows (h : Remembers look inv knows) (before : Facts) :
    Keeps look fun state => inv state ∧ Grows before (knows state) :=
  fun name state valid =>
    ⟨h.keeps name state valid.1, valid.2.trans (h.retains name state valid.1)⟩

theorem of_look (h : Remembers look inv knows) {name : TypeName} {state state' : σ} {fact : Fact}
    (valid : inv state) (looked : look name state = (some fact, state')) :
    knows state' name = some fact := by
  simpa [looked] using h.learns name state fact valid

theorem grows_of_searchesInterfaces (h : Remembers look inv knows) {stack : List Fact}
    {met met' : Met} {state state' : σ} {isFound : Bool} (valid : inv state)
    (searched : SearchesInterfaces look pass target stack met state isFound met' state') :
    Grows (knows state) (knows state') :=
  ((h.keeps_grows _).of_searchesInterfaces ⟨valid, .refl _⟩ searched).2

theorem grows_of_searchesClasses (h : Remembers look inv knows) {name? : Option TypeName}
    {met met' : Met} {state state' : σ} {verdict : Verdict} (valid : inv state)
    (searched : SearchesClasses look pass target name? met state verdict met' state') :
    Grows (knows state) (knows state') :=
  ((h.keeps_grows _).of_searchesClasses ⟨valid, .refl _⟩ searched).2

theorem grows_of_climbs (h : Remembers look inv knows) {name? : Option TypeName}
    {met : List TypeName} {state state' : σ} {isMet : Bool} (valid : inv state)
    (climbs : Climbs look target name? met state isMet state') :
    Grows (knows state) (knows state') :=
  ((h.keeps_grows _).of_climbs ⟨valid, .refl _⟩ climbs).2

/-- What is on the stack after a list of interfaces was there before or is the fact of one. -/
theorem of_meetInterfaces (h : Remembers look inv knows) {names : List TypeName}
    {stack stack' : List Fact} {met met' : Met} {state state' : σ} (valid : inv state)
    (e : meetInterfaces look pass names stack met state = (stack', met', state')) :
    ∀ fact ∈ stack', fact ∈ stack ∨ ∃ name ∈ names, knows state' name = some fact := by
  fun_induction meetInterfaces look pass names stack met state with
  | case1 =>
    cases e
    exact fun fact member => .inl member
  | case2 name rest stack met state _ ih =>
    exact fun fact member => (ih valid e fact member).imp_right List.exists_mem_cons_of_exists
  | case3 name rest stack met state _ _ state₁ looked ih =>
    intro fact member
    exact (ih (h.keeps.of_look valid looked) e fact member).imp_right List.exists_mem_cons_of_exists
  | case4 name rest stack met state _ _ upper state₁ looked stack₁ ih =>
    have valid₁ := h.keeps.of_look valid looked
    have grown := ((h.keeps_grows _).of_meetInterfaces ⟨valid₁, .refl _⟩ e).2
    intro fact member
    rcases ih valid₁ e fact member with member | ⟨other, member', known⟩
    · simp only [stack₁] at member
      split at member
      · exact .inl member
      · rcases List.mem_cons.mp member with rfl | member
        · exact .inr ⟨name, .head _, grown _ _ (h.of_look valid looked)⟩
        · exact .inl member
    · exact .inr ⟨other, .tail _ member', known⟩

/-- If a search of interfaces finds the target, a fact on the stack leads there. -/
theorem of_searchesInterfaces (h : Remembers look inv knows) {stack : List Fact} {met met' : Met}
    {state state' : σ} {isFound : Bool} (valid : inv state)
    (searched : SearchesInterfaces look pass target stack met state isFound met' state')
    (found : isFound = true) : ∃ fact ∈ stack, Leads (knows state') fact target := by
  induction searched with
  | empty => cases found
  | @declares fact _ _ _ declared =>
    exact ⟨fact, .head _, .of_mem (by simpa [Fact.declares] using declared)⟩
  | @next fact _ _ _ _ _ _ _ _ _ _ e rest ih =>
    have valid₁ := h.keeps.of_meetInterfaces valid e
    obtain ⟨upper, member, leads⟩ := ih valid₁ found
    rcases h.of_meetInterfaces valid e upper member with member | ⟨name, declared, known⟩
    · exact ⟨upper, .tail _ member, leads⟩
    · have known' := h.grows_of_searchesInterfaces valid₁ rest _ _ known
      exact ⟨fact, .head _, leads.through declared known'⟩

/-- If a pass finds the target, the class where it starts implements it. -/
theorem of_searchesClasses (h : Remembers look inv knows) {name? : Option TypeName}
    {met met' : Met} {state state' : σ} {verdict : Verdict} (valid : inv state)
    (searched : SearchesClasses look pass target name? met state verdict met' state')
    (found : verdict = .found) :
    ∃ name, name? = some name ∧ Implements (knows state') name target := by
  induction searched with
  | top | again | unknown => exact absurd found (Met.verdict_ne_found _)
  | @found name _ _ _ _ _ fact _ looked searched =>
    have valid₁ := h.keeps.of_look valid looked
    have known := h.grows_of_searchesInterfaces valid₁ searched _ _ (h.of_look valid looked)
    have leads := by simpa using h.of_searchesInterfaces valid₁ searched rfl
    exact ⟨name, rfl, implements_iff_leads.mpr ⟨name, fact, .refl, known, leads⟩⟩
  | @next name _ _ _ _ _ _ _ fact _ _ looked searched rest ih =>
    have valid₁ := h.keeps.of_look valid looked
    have valid₂ := h.keeps.of_searchesInterfaces valid₁ searched
    have grown := (h.grows_of_searchesInterfaces valid₁ searched).trans
      (h.grows_of_searchesClasses valid₂ rest)
    obtain ⟨upper, edge, implements⟩ := ih valid₂ found
    have known := grown _ _ (h.of_look valid looked)
    exact ⟨name, rfl, implements.of_superclass ⟨fact, known, edge⟩⟩

/-- If a climb meets the target, the class where it starts extends it. -/
theorem of_climbs (h : Remembers look inv knows) {name? : Option TypeName} {met : List TypeName}
    {state state' : σ} {isMet : Bool} (valid : inv state)
    (climbs : Climbs look target name? met state isMet state') (found : isMet = true) :
    ∃ name, name? = some name ∧ Extends (knows state') name target := by
  induction climbs with
  | top | again | unknown => cases found
  | here => exact ⟨target, rfl, .refl⟩
  | @next name _ _ _ _ fact _ _ _ looked rest ih =>
    have valid₁ := h.keeps.of_look valid looked
    have known := h.grows_of_climbs valid₁ rest _ _ (h.of_look valid looked)
    obtain ⟨upper, edge, up⟩ := ih valid₁ found
    exact ⟨name, rfl, .head ⟨fact, known, edge⟩ up⟩

/-- If a pass finds the target, the type implements it by what is known then. -/
theorem implements_of_pass (h : Remembers look inv knows) {name : TypeName} {state state' : σ}
    (valid : inv state)
    (searched : searchClasses look pass target (some name) {} state = some (.found, state')) :
    Implements (knows state') name target := by
  obtain ⟨met', course⟩ := SearchesClasses.of_eq searched
  obtain ⟨_, same, implements⟩ := h.of_searchesClasses valid course rfl
  exact Option.some.inj same ▸ implements

/-- If a climb meets the target, the type extends it by what is known then. -/
theorem extends_of_climb (h : Remembers look inv knows) {name : TypeName} {state state' : σ}
    (valid : inv state)
    (climbed : climb look target (some name) [] state = some (true, state')) :
    Extends (knows state') name target := by
  obtain ⟨_, same, up⟩ := h.of_climbs valid (.of_eq climbed) rfl
  exact Option.some.inj same ▸ up

end Remembers

end TypeLineage.Engine
