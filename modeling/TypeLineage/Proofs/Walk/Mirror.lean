import TypeLineage.Proofs.Walk.Completeness
import TypeLineage.Proofs.Walk.Soundness
import TypeLineage.Proofs.Walk.Termination

/-!
# Walks over fixed facts

Looks that answer from fixed facts: the cache is one source of such answers as long as nothing is
read, and a reader that does not change its mind is another. A walk over such looks decides what the
facts say. A pass over the cache only denies an interface exactly if all that is reached is there
and none of it declares the interface.
-/

namespace TypeLineage.Engine

open Hierarchy Look

variable {σ : Type} {look : Look σ} {pass : Pass} {target : TypeName}
  {inv : σ → Prop} {facts : Facts}

/-- Looks that answer from fixed facts while the invariant lasts. -/
structure Mirrors (look : Look σ) (inv : σ → Prop) (facts : Facts) :
    Prop where
  /-- A look keeps the invariant. -/
  keeps : Keeps look inv
  /-- The answer is that of the facts. -/
  mirrors : ∀ name state, inv state → (look name state).1 = facts name

/-- If nothing is missing, all that has been met has a fact. -/
def Met.Covered (met : Met) (facts : Facts) : Prop :=
  met.complete = true → (∀ name ∈ met.classes, (facts name).isSome) ∧
    ∀ name ∈ met.interfaces, (facts name).isSome

theorem Met.Covered.empty : Met.Covered {} facts := by
  simp [Met.Covered]

theorem Met.Covered.of_lacking {met : Met} : (met.lacking .cachedOnly).Covered facts := by
  simp [Met.Covered]

theorem Met.Covered.addClass {met : Met} (h : met.Covered facts) {name : TypeName} {fact : Fact}
    (known : facts name = some fact) : (met.addClass name).Covered facts := by
  intro complete
  obtain ⟨classes, interfaces⟩ := h complete
  exact ⟨by simpa [known] using classes, interfaces⟩

namespace Mirrors

theorem of_look (h : Mirrors look inv facts) {name : TypeName} {state state' : σ}
    {answer : Option Fact} (valid : inv state) (looked : look name state = (answer, state')) :
    facts name = answer := by
  simpa [looked, eq_comm] using h.mirrors name state valid

theorem remembers (h : Mirrors look inv facts) : Remembers look inv fun _ => facts where
  keeps := h.keeps
  retains _ _ _ := .refl _
  learns name state _ valid given := (h.mirrors name state valid).symm.trans given

theorem recalls (h : Mirrors look inv facts) : Recalls look inv facts where
  keeps := h.keeps
  recalls name state _ valid known := (h.mirrors name state valid).trans known

theorem confined (h : Mirrors look inv facts) {names : Finset TypeName}
    (closed : ∀ name ∈ names, ∀ fact, facts name = some fact → Within names fact) :
    Confined look inv names where
  keeps := h.keeps
  within name state fact valid member given :=
    closed name member fact ((h.mirrors name state valid).symm.trans given)

/-- **A pass finds what the facts say the type implements.** -/
theorem found_iff (h : Mirrors look inv facts) {name : TypeName} {state state' : σ}
    {verdict : Verdict} (valid : inv state)
    (searched : searchClasses look pass target (some name) {} state = some (verdict, state')) :
    verdict = .found ↔ Implements facts name target := by
  constructor
  · rintro rfl
    exact h.remembers.implements_of_pass valid searched
  · contrapose
    exact h.recalls.not_implements_of_pass valid searched

/-- **A climb meets what the facts say the type extends.** -/
theorem isMet_iff (h : Mirrors look inv facts) {name : TypeName} {state state' : σ} {isMet : Bool}
    (valid : inv state)
    (climbed : climb look target (some name) [] state = some (isMet, state')) :
    isMet = true ↔ Extends facts name target := by
  cases isMet with
  | true => simpa using h.remembers.extends_of_climb valid climbed
  | false => simpa using h.recalls.not_extends_of_climb valid climbed

/-! ### Passes over the cache only -/

theorem covered_of_meetInterfaces (h : Mirrors look inv facts) {names : List TypeName}
    {stack stack' : List Fact} {met met' : Met} {state state' : σ} (valid : inv state)
    (e : meetInterfaces look .cachedOnly names stack met state = (stack', met', state'))
    (covered : met.Covered facts) : met'.Covered facts := by
  fun_induction meetInterfaces look .cachedOnly names stack met state with
  | case1 =>
    cases e
    exact covered
  | case2 name rest stack met state member ih => exact ih valid e covered
  | case3 name rest stack met state fresh met₁ state₁ looked ih =>
    exact ih (h.keeps.of_look valid looked) e .of_lacking
  | case4 name rest stack met state fresh met₁ upper state₁ looked stack₁ ih =>
    refine ih (h.keeps.of_look valid looked) e fun complete => ?_
    obtain ⟨classes, interfaces⟩ := covered complete
    refine ⟨classes, fun other member => ?_⟩
    rcases List.mem_cons.mp member with rfl | member
    · simp [h.of_look valid looked]
    · exact interfaces other member

theorem covered_of_searchesInterfaces (h : Mirrors look inv facts) {stack : List Fact}
    {met met' : Met} {state state' : σ} {isFound : Bool} (valid : inv state)
    (searched : SearchesInterfaces look .cachedOnly target stack met state isFound met' state')
    (covered : met.Covered facts) : met'.Covered facts := by
  induction searched with
  | empty | declares => exact covered
  | next _ e _ ih =>
    exact ih (h.keeps.of_meetInterfaces valid e) (h.covered_of_meetInterfaces valid e covered)

theorem covered_of_searchesClasses (h : Mirrors look inv facts) {name? : Option TypeName}
    {met met' : Met} {state state' : σ} {verdict : Verdict} (valid : inv state)
    (searched : SearchesClasses look .cachedOnly target name? met state verdict met' state')
    (covered : met.Covered facts) : met'.Covered facts := by
  induction searched with
  | top | again => exact covered
  | unknown => exact .of_lacking
  | found _ looked searched =>
    exact h.covered_of_searchesInterfaces (h.keeps.of_look valid looked) searched
      (covered.addClass (h.of_look valid looked))
  | next _ looked searched _ ih =>
    have valid₁ := h.keeps.of_look valid looked
    exact ih (h.keeps.of_searchesInterfaces valid₁ searched)
      (h.covered_of_searchesInterfaces valid₁ searched
        (covered.addClass (h.of_look valid looked)))

/-- If something was missing, it was an interface of the list, or it was missing before. -/
theorem missing_of_meetInterfaces (h : Mirrors look inv facts) {names : List TypeName}
    {stack stack' : List Fact} {met met' : Met} {state state' : σ} (valid : inv state)
    (e : meetInterfaces look .cachedOnly names stack met state = (stack', met', state'))
    (missing : met'.complete = false) :
    met.complete = false ∨ ∃ name ∈ names, facts name = none := by
  fun_induction meetInterfaces look .cachedOnly names stack met state with
  | case1 =>
    cases e
    exact .inl missing
  | case2 name rest stack met state member ih =>
    exact (ih valid e).imp_right List.exists_mem_cons_of_exists
  | case3 name rest stack met state fresh met₁ state₁ looked ih =>
    exact .inr ⟨name, .head _, h.of_look valid looked⟩
  | case4 name rest stack met state fresh met₁ upper state₁ looked stack₁ ih =>
    exact (ih (h.keeps.of_look valid looked) e).imp_right List.exists_mem_cons_of_exists

theorem missing_of_searchesInterfaces (h : Mirrors look inv facts) {stack : List Fact}
    {met met' : Met} {state state' : σ} {isFound : Bool} (valid : inv state)
    (searched : SearchesInterfaces look .cachedOnly target stack met state isFound met' state')
    (missing : met'.complete = false) :
    met.complete = false ∨ ∃ fact ∈ stack, ∃ name, Leads facts fact name ∧ facts name = none := by
  induction searched with
  | empty | declares => exact .inl missing
  | @next fact _ _ _ _ _ _ _ _ _ _ e _ ih =>
    rcases ih (h.keeps.of_meetInterfaces valid e) missing with
      missing₁ | ⟨upper, member, name, leads, unknown⟩
    · refine (h.missing_of_meetInterfaces valid e missing₁).imp_right ?_
      rintro ⟨name, declared, unknown⟩
      exact ⟨fact, .head _, name, .of_mem declared, unknown⟩
    · right
      rcases h.remembers.of_meetInterfaces valid e upper member with
        member | ⟨first, declared, known⟩
      · exact ⟨upper, .tail _ member, name, leads, unknown⟩
      · exact ⟨fact, .head _, name, leads.through declared known, unknown⟩

theorem missing_of_searchesClasses (h : Mirrors look inv facts) {name? : Option TypeName}
    {met met' : Met} {state state' : σ} {verdict : Verdict} (valid : inv state)
    (searched : SearchesClasses look .cachedOnly target name? met state verdict met' state')
    (missing : met'.complete = false) :
    met.complete = false ∨
      ∃ first name, name? = some first ∧ Reaches facts first name ∧ facts name = none := by
  -- What a class leads to is missing, or something missing before it was looked up.
  have here : ∀ {name : TypeName} {met met₁ : Met} {state state₁ state₂ : σ} {fact : Fact}
      {isFound : Bool}, inv state → look name state = (some fact, state₁) →
      SearchesInterfaces look .cachedOnly target [fact] (met.addClass name) state₁ isFound met₁
        state₂ → met₁.complete = false →
      met.complete = false ∨
        ∃ first other, some name = some first ∧ Reaches facts first other ∧ facts other = none := by
    intro name met met₁ state state₁ state₂ fact isFound valid looked searched missing₁
    refine (h.missing_of_searchesInterfaces (h.keeps.of_look valid looked) searched
      missing₁).imp_right ?_
    rintro ⟨upper, member, other, leads, unknown⟩
    have same : upper = fact := by simpa using member
    have known := h.of_look valid looked
    refine ⟨name, other, rfl, reaches_iff_leads.mpr (.inr ⟨name, fact, .refl, known, ?_⟩), unknown⟩
    exact same ▸ leads
  induction searched with
  | top | again => exact .inl missing
  | @unknown name _ _ _ _ looked =>
    exact .inr ⟨name, name, rfl, .refl _ _, h.of_look valid looked⟩
  | found _ looked searched => exact here valid looked searched missing
  | @next name _ _ _ _ _ _ _ fact _ _ looked searched _ ih =>
    have valid₁ := h.keeps.of_look valid looked
    rcases ih (h.keeps.of_searchesInterfaces valid₁ searched) missing with
      missing₁ | ⟨upper, other, edge, reaches, unknown⟩
    · exact here valid looked searched missing₁
    · have below := reaches.of_superclass ⟨fact, h.of_look valid looked, edge⟩
      exact .inr ⟨name, other, rfl, below, unknown⟩

/-- **A pass over the cache only denies the target** exactly if all that the type reaches has a fact
and none of those facts declares the target. -/
theorem absent_iff (h : Mirrors look inv facts) {name : TypeName} {state state' : σ}
    {verdict : Verdict} (valid : inv state)
    (searched : searchClasses look .cachedOnly target (some name) {} state =
      some (verdict, state')) :
    verdict = .absent ↔ ∀ other, Reaches facts name other →
      ∃ fact, facts other = some fact ∧ target ∉ fact.interfaces := by
  obtain ⟨met', course⟩ := SearchesClasses.of_eq searched
  constructor
  · rintro rfl other reaches
    have complete : met'.complete = true := by
      rcases course.verdict_eq with found | same
      · cases found
      · exact Met.verdict_eq_absent.mp same.symm
    obtain ⟨classes, interfaces⟩ := h.covered_of_searchesClasses valid course .empty complete
    obtain ⟨closed, settled, climbed, start⟩ := h.recalls.of_searchesClasses valid course
      (by simp [Met.Closed]) (by simp [Met.Settled]) (by simp [ClimbedTo]) (by simp)
    have known : (facts other).isSome :=
      (closed.of_reaches settled climbed (start name rfl) reaches).elim (classes other)
        (interfaces other)
    obtain ⟨fact, known⟩ := Option.isSome_iff_exists.mp known
    refine ⟨fact, known, fun declared => ?_⟩
    exact closed.not_implements settled climbed (start name rfl)
      ⟨other, fact, reaches, known, declared⟩
  · intro all
    cases verdict with
    | absent => rfl
    | found =>
      obtain ⟨other, fact, reaches, known, declared⟩ := (h.found_iff valid searched).mp rfl
      obtain ⟨fact', known', undeclared⟩ := all other reaches
      rw [known] at known'
      exact absurd declared (Option.some.inj known' ▸ undeclared)
    | inconclusive =>
      have missing : met'.complete = false := by
        rcases course.verdict_eq with found | same
        · cases found
        · exact Met.verdict_eq_inconclusive.mp same.symm
      rcases h.missing_of_searchesClasses valid course missing with
        before | ⟨first, other, same, reaches, unknown⟩
      · cases before
      · obtain ⟨fact, known, -⟩ := all other (Option.some.inj same ▸ reaches)
        simp [unknown] at known

end Mirrors

end TypeLineage.Engine
