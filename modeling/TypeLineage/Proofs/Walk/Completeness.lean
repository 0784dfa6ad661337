import TypeLineage.Proofs.Hierarchy
import TypeLineage.Proofs.Walk.Course

/-!
# What a walk does not find is not so

Looks that recall certain facts: they give them whenever they are asked. What else they give, and
what they give at other times, does not matter. When a walk over such looks ends without its target,
those facts do not lead there.

The reason is what the walk has met. Every fact of an interface met either waits on the stack or is
settled: it does not declare the target, and all the interfaces that it declares have been met. At
the end nothing waits, so nothing outside can be reached from what has been met.
-/

namespace TypeLineage.Engine

open Relation Hierarchy Look

variable {σ : Type} {look : Look σ} {pass : Pass} {target : TypeName}
  {inv : σ → Prop} {known : Facts}

/-- Looks that recall certain facts as long as the invariant lasts. -/
structure Recalls (look : Look σ) (inv : σ → Prop) (known : Facts) :
    Prop where
  /-- A look keeps the invariant. -/
  keeps : Keeps look inv
  /-- A look gives the fact that is known. -/
  recalls : ∀ name state fact, inv state → known name = some fact →
    (look name state).1 = some fact

/-! ### What has been met -/

/-- The superclasses of the classes met have been met or are next. -/
def ClimbedTo (known : Facts) (met : List TypeName) (next? : Option TypeName) : Prop :=
  ∀ name ∈ met, ∀ upper, SuperclassOf known name upper → upper ∈ met ∨ next? = some upper

namespace ClimbedTo

variable {met : List TypeName} {name : TypeName} {next? : Option TypeName}

/-- A class that has been met before need not come next. -/
theorem again (h : ClimbedTo known met (some name)) (member : name ∈ met) :
    ClimbedTo known met none := by
  intro cls member' upper edge
  rcases h cls member' upper edge with member'' | same
  · exact .inl member''
  · exact .inl (Option.some.inj same ▸ member)

/-- The class that was next has been met, and its own superclass comes next. -/
theorem cons (h : ClimbedTo known met (some name))
    (above : ∀ fact, known name = some fact → fact.superclass = next?) :
    ClimbedTo known (name :: met) next? := by
  intro cls member upper edge
  rcases List.mem_cons.mp member with rfl | member
  · obtain ⟨fact, known', edge⟩ := edge
    exact .inr ((above fact known').symm.trans edge)
  · rcases h cls member upper edge with member' | same
    · exact .inl (.tail _ member')
    · exact .inl (Option.some.inj same ▸ .head _)

/-- When no class is next, all classes above those met have been met. -/
theorem of_extends (h : ClimbedTo known met none) {cls : TypeName} (member : name ∈ met)
    (up : Extends known name cls) : cls ∈ met := by
  induction up with
  | refl => exact member
  | tail _ edge ih => simpa using h _ ih _ edge

end ClimbedTo

namespace Met

/-- The fact does not declare the target, and all that it declares has been met. -/
structure Settles (met : Met) (target : TypeName) (fact : Fact) : Prop where
  /-- The target is not declared. -/
  undeclared : target ∉ fact.interfaces
  /-- The declared interfaces have been met. -/
  met : ∀ name ∈ fact.interfaces, name ∈ met.interfaces

/-- Every known fact of an interface met waits on the stack or is settled. -/
def Closed (met : Met) (known : Facts) (target : TypeName) (stack : List Fact) : Prop :=
  ∀ name ∈ met.interfaces, ∀ fact, known name = some fact → fact ∈ stack ∨ met.Settles target fact

/-- Every known fact of a class met is settled. -/
def Settled (met : Met) (known : Facts) (target : TypeName) : Prop :=
  ∀ name ∈ met.classes, ∀ fact, known name = some fact → met.Settles target fact

variable {met met' : Met} {fact : Fact} {name : TypeName}

theorem Settles.mono (h : met.Settles target fact) (more : met.interfaces ⊆ met'.interfaces) :
    met'.Settles target fact :=
  ⟨h.undeclared, fun name declared => more (h.met name declared)⟩

theorem Settles.of_interfaces_nil (h : fact.interfaces = []) : met.Settles target fact :=
  ⟨by simp [h], by simp [h]⟩

/-- When nothing waits, a settled fact leads only to what has been met, and not to the target. -/
theorem Closed.of_leads (closed : met.Closed known target []) (settled : met.Settles target fact)
    (h : Leads known fact name) : name ∈ met.interfaces ∧ name ≠ target := by
  obtain ⟨first, declared, across⟩ := h
  induction across with
  | refl =>
    refine ⟨settled.met _ declared, ?_⟩
    rintro rfl
    exact settled.undeclared declared
  | tail _ edge ih =>
    obtain ⟨upper, known', declared'⟩ := edge
    obtain waits | settled' := closed _ ih.1 upper known'
    · simp at waits
    · refine ⟨settled'.met _ declared', ?_⟩
      rintro rfl
      exact settled'.undeclared declared'

/-- What counts of the interfaces met is only which they are. -/
theorem Closed.congr {stack : List Fact} (same : met.interfaces = met'.interfaces)
    (closed : met.Closed known target stack) : met'.Closed known target stack :=
  fun name member fact known' =>
    (closed name (same ▸ member) fact known').imp_right fun settled => settled.mono (by simp [same])

/-- When nothing waits and no class is next, what a class met reaches has been met. -/
theorem Closed.of_reaches (closed : met.Closed known target []) (settled : met.Settled known target)
    (climbed : ClimbedTo known met.classes none) {cls : TypeName} (member : cls ∈ met.classes)
    (h : Reaches known cls name) : name ∈ met.classes ∨ name ∈ met.interfaces := by
  obtain up | ⟨upper, fact, up, known', leads⟩ := reaches_iff_leads.mp h
  · exact .inl (climbed.of_extends member up)
  · have settles := settled upper (climbed.of_extends member up) fact known'
    exact .inr (closed.of_leads settles leads).1

/-- When nothing waits and no class is next, no class met implements the target. -/
theorem Closed.not_implements (closed : met.Closed known target [])
    (settled : met.Settled known target) (climbed : ClimbedTo known met.classes none)
    (member : name ∈ met.classes) : ¬ Implements known name target := by
  intro h
  obtain ⟨cls, fact, up, known', leads⟩ := implements_iff_leads.mp h
  have settles := settled cls (climbed.of_extends member up) fact known'
  exact (closed.of_leads settles leads).2 rfl

end Met

namespace Recalls

theorem of_look (h : Recalls look inv known) {name : TypeName} {state state' : σ}
    {answer : Option Fact} (valid : inv state) (looked : look name state = (answer, state'))
    {fact : Fact} (known' : known name = some fact) : answer = some fact := by
  simpa [looked] using h.recalls name state fact valid known'

theorem unknown_of_look (h : Recalls look inv known) {name : TypeName} {state state' : σ}
    (valid : inv state) (looked : look name state = (none, state')) : known name = none := by
  cases known' : known name with
  | none => rfl
  | some fact => simpa using h.of_look valid looked known'

/-- The known facts of interfaces met now wait on the stack, unless they declare nothing. -/
theorem of_meetInterfaces (h : Recalls look inv known) {names : List TypeName}
    {stack stack' : List Fact} {met met' : Met} {state state' : σ} (valid : inv state)
    (e : meetInterfaces look pass names stack met state = (stack', met', state')) :
    ∀ name ∈ met'.interfaces, name ∈ met.interfaces ∨
      ∀ fact, known name = some fact → fact ∈ stack' ∨ fact.interfaces = [] := by
  fun_induction meetInterfaces look pass names stack met state with
  | case1 =>
    cases e
    exact fun name member => .inl member
  | case2 name rest stack met state _ ih => exact ih valid e
  | case3 name rest stack met state _ _ state₁ looked ih =>
    intro other member
    rcases ih (h.keeps.of_look valid looked) e other member with member | waits
    · rcases List.mem_cons.mp member with rfl | member
      · exact .inr (by simp [h.unknown_of_look valid looked])
      · exact .inl member
    · exact .inr waits
  | case4 name rest stack met state _ _ upper state₁ looked stack₁ ih =>
    obtain ⟨stacked, -⟩ := meets_of_meetInterfaces e
    intro other member
    rcases ih (h.keeps.of_look valid looked) e other member with member | waits
    · rcases List.mem_cons.mp member with rfl | member
      · refine .inr fun fact known' => ?_
        obtain rfl : upper = fact := by simpa using h.of_look valid looked known'
        by_cases empty : upper.interfaces = []
        · exact .inr empty
        · exact .inl (stacked (by simp [stack₁, empty]))
      · exact .inl member
    · exact .inr waits

/-- A search of interfaces that ends without the target leaves nothing waiting. -/
theorem of_searchesInterfaces (h : Recalls look inv known) {stack : List Fact} {met met' : Met}
    {state state' : σ} {isFound : Bool} (valid : inv state)
    (searched : SearchesInterfaces look pass target stack met state isFound met' state')
    (closed : met.Closed known target stack) (notFound : isFound = false) :
    met'.Closed known target [] ∧ ∀ fact ∈ stack, met'.Settles target fact := by
  induction searched with
  | empty => exact ⟨closed, by simp⟩
  | declares _ => cases notFound
  | @next fact stack stack₁ met met₁ _ _ _ _ _ undeclared e rest ih =>
    obtain ⟨stacked, more, all, -⟩ := meets_of_meetInterfaces e
    have settled : met₁.Settles target fact := ⟨by simpa [Fact.declares] using undeclared, all⟩
    have closed₁ : met₁.Closed known target stack₁ := by
      intro name member upper known'
      rcases h.of_meetInterfaces valid e name member with member | waits
      · rcases closed name member upper known' with waits | settled'
        · rcases List.mem_cons.mp waits with rfl | waits
          · exact .inr settled
          · exact .inl (stacked waits)
        · exact .inr (settled'.mono more)
      · exact (waits upper known').imp_right .of_interfaces_nil
    obtain ⟨closed₂, settled₂⟩ := ih (h.keeps.of_meetInterfaces valid e) closed₁ notFound
    refine ⟨closed₂, fun upper member => ?_⟩
    rcases List.mem_cons.mp member with rfl | member
    · exact settled.mono rest.interfaces_subset
    · exact settled₂ upper (stacked member)

/-- A pass that ends without the target leaves nothing waiting and no class next. -/
theorem of_searchesClasses (h : Recalls look inv known) {name? : Option TypeName}
    {met met' : Met} {state state' : σ} {verdict : Verdict} (valid : inv state)
    (searched : SearchesClasses look pass target name? met state verdict met' state')
    (closed : met.Closed known target []) (settled : met.Settled known target)
    (climbed : ClimbedTo known met.classes name?) (notFound : verdict ≠ .found) :
    met'.Closed known target [] ∧ met'.Settled known target ∧
      ClimbedTo known met'.classes none ∧ ∀ name, name? = some name → name ∈ met'.classes := by
  induction searched with
  | top => exact ⟨closed, settled, climbed, by simp⟩
  | again member => exact ⟨closed, settled, climbed.again member, by simpa using member⟩
  | @unknown name met _ _ _ looked =>
    have unknown := h.unknown_of_look valid looked
    refine ⟨closed.congr (by simp), fun cls member fact known' => ?_,
      climbed.cons (by simp [unknown]), by simp⟩
    rcases List.mem_cons.mp member with rfl | member
    · simp [unknown] at known'
    · exact (settled cls member fact known').mono (by simp)
  | found => exact absurd rfl notFound
  | @next name met met₁ _ _ _ _ _ fact _ _ looked searched rest ih =>
    have same : ∀ upper, known name = some upper → fact = upper := fun upper known' => by
      simpa using h.of_look valid looked known'
    have valid₁ := h.keeps.of_look valid looked
    have closed₁ : (met.addClass name).Closed known target [fact] :=
      fun other member upper known' => by
        rcases closed other member upper known' with waits | settles
        · simp at waits
        · exact .inr (settles.mono (by simp))
    obtain ⟨closed₂, settles⟩ := h.of_searchesInterfaces valid₁ searched closed₁ rfl
    have classes : met₁.classes = name :: met.classes := searched.classes_eq
    have settled₂ : met₁.Settled known target := by
      intro cls member upper known'
      rw [classes] at member
      rcases List.mem_cons.mp member with rfl | member
      · exact same upper known' ▸ settles fact (by simp)
      · exact (settled cls member upper known').mono searched.interfaces_subset
    have climbed₂ : ClimbedTo known met₁.classes fact.superclass :=
      classes ▸ climbed.cons fun upper known' => by rw [same upper known']
    obtain ⟨closed₃, settled₃, climbed₃, -⟩ :=
      ih (h.keeps.of_searchesInterfaces valid₁ searched) closed₂ settled₂ climbed₂ notFound
    have member := rest.classes_subset (classes ▸ List.mem_cons_self : name ∈ met₁.classes)
    exact ⟨closed₃, settled₃, climbed₃, by simpa using member⟩

/-- A climb that ends without the target has met all classes above its start. -/
theorem of_climbs (h : Recalls look inv known) {name? : Option TypeName} {met : List TypeName}
    {state state' : σ} {isMet : Bool} (valid : inv state)
    (climbs : Climbs look target name? met state isMet state') (notMet : isMet = false)
    (other : target ∉ met) (climbed : ClimbedTo known met name?) :
    ∃ met', target ∉ met' ∧ ClimbedTo known met' none ∧ met ⊆ met' ∧
      ∀ name, name? = some name → name ∈ met' := by
  induction climbs with
  | @top met _ => exact ⟨met, other, climbed, List.Subset.refl _, by simp⟩
  | here => cases notMet
  | @again name met _ _ member =>
    exact ⟨met, other, climbed.again member, List.Subset.refl _, by simpa using member⟩
  | @unknown name met _ _ differs _ looked =>
    have unknown := h.unknown_of_look valid looked
    exact ⟨name :: met, by simp [Ne.symm differs, other], climbed.cons (by simp [unknown]), by simp,
      by simp⟩
  | @next name met _ _ _ fact _ differs _ looked _ ih =>
    have climbed₁ : ClimbedTo known (name :: met) fact.superclass :=
      climbed.cons fun upper known' => by rw [Option.some.inj (h.of_look valid looked known')]
    obtain ⟨met', other', climbed', more, -⟩ := ih (h.keeps.of_look valid looked) notMet
      (by simp [Ne.symm differs, other]) climbed₁
    obtain ⟨member, more⟩ := List.cons_subset.mp more
    exact ⟨met', other', climbed', more, by simpa using member⟩

/-- If a pass does not find the target, the type does not implement it. -/
theorem not_implements_of_pass (h : Recalls look inv known) {name : TypeName} {state state' : σ}
    {verdict : Verdict} (valid : inv state)
    (searched : searchClasses look pass target (some name) {} state = some (verdict, state'))
    (notFound : verdict ≠ .found) : ¬ Implements known name target := by
  obtain ⟨met', course⟩ := SearchesClasses.of_eq searched
  obtain ⟨closed, settled, climbed, start⟩ := h.of_searchesClasses valid course
    (by simp [Met.Closed]) (by simp [Met.Settled]) (by simp [ClimbedTo]) notFound
  exact closed.not_implements settled climbed (start name rfl)

/-- If a climb does not meet the target, the type does not extend it. -/
theorem not_extends_of_climb (h : Recalls look inv known) {name : TypeName} {state state' : σ}
    (valid : inv state)
    (climbed : climb look target (some name) [] state = some (false, state')) :
    ¬ Extends known name target := by
  intro up
  obtain ⟨met', other, climbed', -, start⟩ :=
    h.of_climbs valid (.of_eq climbed) rfl (by simp) (by simp [ClimbedTo])
  exact other (climbed'.of_extends (start name rfl) up)

end Recalls

end TypeLineage.Engine
