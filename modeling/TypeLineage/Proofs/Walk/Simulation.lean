import TypeLineage.Proofs.Walk.Course

/-!
# Two walks side by side

Looks on two kinds of states that give the same answers in related states, and lead to related
states again, take a walk along the same course. Looks that agree with others wherever those give a
fact take over every walk in which nothing was missing.
-/

namespace TypeLineage.Engine

open Look

variable {σ τ : Type} {look : Look σ} {look' : Look τ}
  {pass : Pass} {target : TypeName}

/-- In related states the looks give the same answer and lead to related states. -/
def Simulates (related : σ → τ → Prop) (look : Look σ)
    (look' : Look τ) : Prop :=
  ∀ name state twin, related state twin →
    (look name state).1 = (look' name twin).1 ∧ related (look name state).2 (look' name twin).2

namespace Simulates

variable {related : σ → τ → Prop}

theorem of_look (h : Simulates related look look') {name : TypeName} {state state' : σ} {twin : τ}
    {answer : Option Fact} (rel : related state twin)
    (looked : look name state = (answer, state')) :
    ∃ twin', look' name twin = (answer, twin') ∧ related state' twin' := by
  obtain ⟨same, rel'⟩ := h name state twin rel
  rw [looked] at same rel'
  exact ⟨(look' name twin).2, Prod.ext same.symm rfl, rel'⟩

theorem of_meetInterfaces (h : Simulates related look look') {names : List TypeName}
    {stack stack' : List Fact} {met met' : Met} {state state' : σ}
    (e : meetInterfaces look pass names stack met state = (stack', met', state')) :
    ∀ twin, related state twin →
      ∃ twin', meetInterfaces look' pass names stack met twin = (stack', met', twin') ∧
        related state' twin' := by
  fun_induction meetInterfaces look pass names stack met state with
  | case1 =>
    cases e
    exact fun twin rel => ⟨twin, rfl, rel⟩
  | case2 name rest stack met state member ih =>
    intro twin rel
    obtain ⟨twin', e', rel'⟩ := ih e twin rel
    exact ⟨twin', by simp [meetInterfaces, member, e'], rel'⟩
  | case3 name rest stack met state fresh met₁ state₁ looked ih =>
    intro twin rel
    obtain ⟨twin₁, looked', rel₁⟩ := h.of_look rel looked
    obtain ⟨twin', e', rel'⟩ := ih e twin₁ rel₁
    exact ⟨twin', by simpa [meetInterfaces, fresh, looked', met₁] using e', rel'⟩
  | case4 name rest stack met state fresh met₁ upper state₁ looked stack₁ ih =>
    intro twin rel
    obtain ⟨twin₁, looked', rel₁⟩ := h.of_look rel looked
    obtain ⟨twin', e', rel'⟩ := ih e twin₁ rel₁
    exact ⟨twin', by simpa [meetInterfaces, fresh, looked', met₁, stack₁] using e', rel'⟩

theorem of_searchesInterfaces (h : Simulates related look look') {stack : List Fact}
    {met met' : Met} {state state' : σ} {twin : τ} {isFound : Bool} (rel : related state twin)
    (searched : SearchesInterfaces look pass target stack met state isFound met' state') :
    ∃ twin', SearchesInterfaces look' pass target stack met twin isFound met' twin' ∧
      related state' twin' := by
  induction searched generalizing twin with
  | empty => exact ⟨twin, .empty, rel⟩
  | declares declared => exact ⟨twin, .declares declared, rel⟩
  | next undeclared e _ ih =>
    obtain ⟨twin₁, e', rel₁⟩ := h.of_meetInterfaces e twin rel
    obtain ⟨twin', rest, rel'⟩ := ih rel₁
    exact ⟨twin', .next undeclared e' rest, rel'⟩

theorem of_searchesClasses (h : Simulates related look look') {name? : Option TypeName}
    {met met' : Met} {state state' : σ} {twin : τ} {verdict : Verdict} (rel : related state twin)
    (searched : SearchesClasses look pass target name? met state verdict met' state') :
    ∃ twin', SearchesClasses look' pass target name? met twin verdict met' twin' ∧
      related state' twin' := by
  induction searched generalizing twin with
  | top => exact ⟨twin, .top, rel⟩
  | again member => exact ⟨twin, .again member, rel⟩
  | unknown fresh looked =>
    obtain ⟨twin₁, looked', rel₁⟩ := h.of_look rel looked
    exact ⟨twin₁, .unknown fresh looked', rel₁⟩
  | found fresh looked searched =>
    obtain ⟨twin₁, looked', rel₁⟩ := h.of_look rel looked
    obtain ⟨twin', searched', rel'⟩ := h.of_searchesInterfaces rel₁ searched
    exact ⟨twin', .found fresh looked' searched', rel'⟩
  | next fresh looked searched _ ih =>
    obtain ⟨twin₁, looked', rel₁⟩ := h.of_look rel looked
    obtain ⟨twin₂, searched', rel₂⟩ := h.of_searchesInterfaces rel₁ searched
    obtain ⟨twin', rest, rel'⟩ := ih rel₂
    exact ⟨twin', .next fresh looked' searched' rest, rel'⟩

/-- A pass over the one looks has the verdict of the pass over the others. -/
theorem of_pass (h : Simulates related look look') {name? : Option TypeName} {met : Met}
    {state state' : σ} {twin : τ} {verdict : Verdict} (rel : related state twin)
    (searched : searchClasses look pass target name? met state = some (verdict, state')) :
    ∃ twin', searchClasses look' pass target name? met twin = some (verdict, twin') ∧
      related state' twin' := by
  obtain ⟨met', course⟩ := SearchesClasses.of_eq searched
  obtain ⟨twin', course', rel'⟩ := h.of_searchesClasses rel course
  exact ⟨twin', course'.eq, rel'⟩

theorem of_climbs (h : Simulates related look look') {name? : Option TypeName}
    {met : List TypeName} {state state' : σ} {twin : τ} {isMet : Bool} (rel : related state twin)
    (climbs : Climbs look target name? met state isMet state') :
    ∃ twin', Climbs look' target name? met twin isMet twin' ∧ related state' twin' := by
  induction climbs generalizing twin with
  | top => exact ⟨twin, .top, rel⟩
  | here => exact ⟨twin, .here, rel⟩
  | again other member => exact ⟨twin, .again other member, rel⟩
  | unknown other fresh looked =>
    obtain ⟨twin₁, looked', rel₁⟩ := h.of_look rel looked
    exact ⟨twin₁, .unknown other fresh looked', rel₁⟩
  | next other fresh looked _ ih =>
    obtain ⟨twin₁, looked', rel₁⟩ := h.of_look rel looked
    obtain ⟨twin', rest, rel'⟩ := ih rel₁
    exact ⟨twin', .next other fresh looked' rest, rel'⟩

/-- A climb over the one looks has the outcome of the climb over the others. -/
theorem of_climb (h : Simulates related look look') {name? : Option TypeName} {met : List TypeName}
    {state state' : σ} {twin : τ} {isMet : Bool} (rel : related state twin)
    (climbed : climb look target name? met state = some (isMet, state')) :
    ∃ twin', climb look' target name? met twin = some (isMet, twin') ∧ related state' twin' := by
  obtain ⟨twin', course, rel'⟩ := h.of_climbs rel (.of_eq climbed)
  exact ⟨twin', course.eq, rel'⟩

end Simulates

/-- The second looks do as the first do wherever those give a fact. -/
def Agrees (look look' : Look σ) : Prop :=
  ∀ name state fact state', look name state = (some fact, state') →
    look' name state = (some fact, state')

namespace Agrees

variable {look' : Look σ} {pass' : Pass}

theorem of_meetInterfaces (h : Agrees look look') {names : List TypeName}
    {stack stack' : List Fact} {met met' : Met} {state state' : σ}
    (e : meetInterfaces look .cachedOnly names stack met state = (stack', met', state'))
    (complete : met'.complete = true) :
    met.complete = true ∧
      meetInterfaces look' pass' names stack met state = (stack', met', state') := by
  fun_induction meetInterfaces look .cachedOnly names stack met state with
  | case1 =>
    cases e
    exact ⟨complete, rfl⟩
  | case2 name rest stack met state member ih =>
    obtain ⟨complete', e'⟩ := ih e
    exact ⟨complete', by simp [meetInterfaces, member, e']⟩
  | case3 name rest stack met state fresh met₁ state₁ looked ih => simpa using (ih e).1
  | case4 name rest stack met state fresh met₁ upper state₁ looked stack₁ ih =>
    obtain ⟨complete', e'⟩ := ih e
    exact ⟨complete', by simpa [meetInterfaces, fresh, h _ _ _ _ looked, met₁, stack₁] using e'⟩

theorem of_searchesInterfaces (h : Agrees look look') {stack : List Fact} {met met' : Met}
    {state state' : σ} {isFound : Bool}
    (searched : SearchesInterfaces look .cachedOnly target stack met state isFound met' state')
    (complete : met'.complete = true) :
    met.complete = true ∧
      SearchesInterfaces look' pass' target stack met state isFound met' state' := by
  induction searched with
  | empty => exact ⟨complete, .empty⟩
  | declares declared => exact ⟨complete, .declares declared⟩
  | next undeclared e _ ih =>
    obtain ⟨complete₁, rest⟩ := ih complete
    obtain ⟨complete', e'⟩ := h.of_meetInterfaces e complete₁
    exact ⟨complete', .next undeclared e' rest⟩

theorem of_searchesClasses (h : Agrees look look') {name? : Option TypeName} {met met' : Met}
    {state state' : σ} {verdict : Verdict}
    (searched : SearchesClasses look .cachedOnly target name? met state verdict met' state')
    (complete : met'.complete = true) :
    met.complete = true ∧
      SearchesClasses look' pass' target name? met state verdict met' state' := by
  induction searched with
  | top => exact ⟨complete, .top⟩
  | again member => exact ⟨complete, .again member⟩
  | unknown => simp at complete
  | found fresh looked searched =>
    obtain ⟨complete', searched'⟩ := h.of_searchesInterfaces searched complete
    exact ⟨complete', .found fresh (h _ _ _ _ looked) searched'⟩
  | next fresh looked searched _ ih =>
    obtain ⟨complete₁, rest⟩ := ih complete
    obtain ⟨complete', searched'⟩ := h.of_searchesInterfaces searched complete₁
    exact ⟨complete', .next fresh (h _ _ _ _ looked) searched' rest⟩

/-- A pass that missed nothing and found nothing goes the same way over the second looks. -/
theorem absent (h : Agrees look look') {name : TypeName} {state state' : σ}
    (searched : searchClasses look .cachedOnly target (some name) {} state =
      some (.absent, state')) :
    searchClasses look' pass' target (some name) {} state = some (.absent, state') := by
  obtain ⟨met', course⟩ := SearchesClasses.of_eq searched
  rcases course.verdict_eq with found | same
  · cases found
  · exact (h.of_searchesClasses course (Met.verdict_eq_absent.mp same.symm)).2.eq

/-- A climb that met its target goes the same way over the second looks. -/
theorem of_climbs (h : Agrees look look') {name? : Option TypeName} {met : List TypeName}
    {state state' : σ} {isMet : Bool}
    (climbs : Climbs look target name? met state isMet state') (found : isMet = true) :
    Climbs look' target name? met state isMet state' := by
  induction climbs with
  | top | again | unknown => cases found
  | here => exact .here
  | next other fresh looked _ ih => exact .next other fresh (h _ _ _ _ looked) (ih found)

end Agrees

end TypeLineage.Engine
