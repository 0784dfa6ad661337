import TypeLineage.Engine.Walk

/-!
# The course of a walk

A walk that has a result took finitely many steps. Its course is stated here as a relation between
where it starts and its result, with a case for every kind of step, and is proved to be what the
walks compute. So a property of walks that end is proved by induction over the course, and a walk is
shown to end by giving its course.
-/

namespace TypeLineage.Engine

open Look

variable {σ : Type}

/-- The course of a search of interfaces. -/
inductive SearchesInterfaces (look : Look σ) (pass : Pass)
    (target : TypeName) : List Fact → Met → σ → Bool → Met → σ → Prop where
  /-- Nothing is left to search. -/
  | empty {met : Met} {state : σ} : SearchesInterfaces look pass target [] met state false met state
  /-- The fact on top declares the target. -/
  | declares {fact : Fact} {stack : List Fact} {met : Met} {state : σ}
      (declared : fact.declares target = true) :
      SearchesInterfaces look pass target (fact :: stack) met state true met state
  /-- The search goes on with the interfaces of the fact on top. -/
  | next {fact : Fact} {stack stack₁ : List Fact} {met met₁ met₂ : Met} {state state₁ state₂ : σ}
      {isFound : Bool} (undeclared : fact.declares target = false)
      (e : meetInterfaces look pass fact.interfaces stack met state = (stack₁, met₁, state₁))
      (rest : SearchesInterfaces look pass target stack₁ met₁ state₁ isFound met₂ state₂) :
      SearchesInterfaces look pass target (fact :: stack) met state isFound met₂ state₂

/-- The course of a pass, with what it has met at its end. -/
inductive SearchesClasses (look : Look σ) (pass : Pass)
    (target : TypeName) : Option TypeName → Met → σ → Verdict → Met → σ → Prop where
  /-- There is no further superclass. -/
  | top {met : Met} {state : σ} :
      SearchesClasses look pass target none met state met.verdict met state
  /-- The class has been met before. -/
  | again {name : TypeName} {met : Met} {state : σ} (member : name ∈ met.classes) :
      SearchesClasses look pass target (some name) met state met.verdict met state
  /-- The class has no fact. -/
  | unknown {name : TypeName} {met : Met} {state state₁ : σ} (fresh : name ∉ met.classes)
      (looked : look name state = (none, state₁)) :
      SearchesClasses look pass target (some name) met state
        ((met.addClass name).lacking pass).verdict ((met.addClass name).lacking pass) state₁
  /-- The interfaces of the class lead to the target. -/
  | found {name : TypeName} {met met₁ : Met} {state state₁ state₂ : σ} {fact : Fact}
      (fresh : name ∉ met.classes) (looked : look name state = (some fact, state₁))
      (searched : SearchesInterfaces look pass target [fact] (met.addClass name) state₁ true met₁
        state₂) :
      SearchesClasses look pass target (some name) met state .found met₁ state₂
  /-- They do not, and the search goes on with the superclass. -/
  | next {name : TypeName} {met met₁ met₂ : Met} {state state₁ state₂ state₃ : σ} {fact : Fact}
      {verdict : Verdict} (fresh : name ∉ met.classes)
      (looked : look name state = (some fact, state₁))
      (searched : SearchesInterfaces look pass target [fact] (met.addClass name) state₁ false met₁
        state₂)
      (rest : SearchesClasses look pass target fact.superclass met₁ state₂ verdict met₂ state₃) :
      SearchesClasses look pass target (some name) met state verdict met₂ state₃

/-- The course of a climb. -/
inductive Climbs (look : Look σ) (target : TypeName) :
    Option TypeName → List TypeName → σ → Bool → σ → Prop where
  /-- There is no further superclass. -/
  | top {met : List TypeName} {state : σ} : Climbs look target none met state false state
  /-- The class is the target. -/
  | here {met : List TypeName} {state : σ} : Climbs look target (some target) met state true state
  /-- The class has been met before. -/
  | again {name : TypeName} {met : List TypeName} {state : σ} (other : name ≠ target)
      (member : name ∈ met) : Climbs look target (some name) met state false state
  /-- The class has no fact. -/
  | unknown {name : TypeName} {met : List TypeName} {state state₁ : σ} (other : name ≠ target)
      (fresh : name ∉ met) (looked : look name state = (none, state₁)) :
      Climbs look target (some name) met state false state₁
  /-- The climb goes on with the superclass. -/
  | next {name : TypeName} {met : List TypeName} {state state₁ state₂ : σ} {fact : Fact}
      {isMet : Bool} (other : name ≠ target) (fresh : name ∉ met)
      (looked : look name state = (some fact, state₁))
      (rest : Climbs look target fact.superclass (name :: met) state₁ isMet state₂) :
      Climbs look target (some name) met state isMet state₂

variable {look : Look σ} {pass : Pass} {target : TypeName}

/-! ### From the result to the course -/

theorem SearchesInterfaces.of_eq {stack : List Fact} {met met' : Met} {state state' : σ}
    {isFound : Bool}
    (h : searchInterfaces look pass target stack met state = some (isFound, met', state')) :
    SearchesInterfaces look pass target stack met state isFound met' state' := by
  refine searchInterfaces.partial_correctness look pass target
    (fun stack met state result =>
      SearchesInterfaces look pass target stack met state result.1 result.2.1 result.2.2)
    ?_ stack met state (isFound, met', state') h
  intro search ih stack met state result h
  cases stack with
  | nil =>
    cases h
    exact .empty
  | cons fact stack =>
    dsimp only at h
    split at h
    case isTrue declared =>
      cases h
      exact .declares declared
    case isFalse undeclared => exact .next (by simpa using undeclared) rfl (ih _ _ _ _ h)

theorem SearchesClasses.of_eq {name? : Option TypeName} {met : Met} {state state' : σ}
    {verdict : Verdict}
    (h : searchClasses look pass target name? met state = some (verdict, state')) :
    ∃ met', SearchesClasses look pass target name? met state verdict met' state' := by
  refine searchClasses.partial_correctness look pass target
    (fun name? met state result =>
      ∃ met', SearchesClasses look pass target name? met state result.1 met' result.2)
    ?_ name? met state (verdict, state') h
  intro search ih name? met state result h
  cases name? with
  | none =>
    cases h
    exact ⟨met, .top⟩
  | some name =>
    dsimp only at h
    split at h
    case isTrue member =>
      cases h
      exact ⟨met, .again member⟩
    case isFalse fresh =>
      split at h
      case h_1 state₁ looked =>
        cases h
        exact ⟨_, .unknown fresh looked⟩
      case h_2 fact state₁ looked =>
        obtain ⟨⟨isFound, met₂, state₂⟩, searched, h⟩ := Option.bind_eq_some_iff.mp h
        cases isFound with
        | true =>
          cases h
          exact ⟨met₂, .found fresh looked (.of_eq searched)⟩
        | false =>
          obtain ⟨met', rest⟩ := ih _ _ _ _ h
          exact ⟨met', .next fresh looked (.of_eq searched) rest⟩

theorem Climbs.of_eq {name? : Option TypeName} {met : List TypeName} {state state' : σ}
    {isMet : Bool} (h : climb look target name? met state = some (isMet, state')) :
    Climbs look target name? met state isMet state' := by
  refine climb.partial_correctness look target
    (fun name? met state result => Climbs look target name? met state result.1 result.2)
    ?_ name? met state (isMet, state') h
  intro walk ih name? met state result h
  cases name? with
  | none =>
    cases h
    exact .top
  | some name =>
    dsimp only at h
    split at h
    case isTrue same =>
      cases h
      exact same ▸ .here
    case isFalse other =>
      split at h
      case isTrue member =>
        cases h
        exact .again other member
      case isFalse fresh =>
        split at h
        case h_1 state₁ looked =>
          cases h
          exact .unknown other fresh looked
        case h_2 fact state₁ looked => exact .next other fresh looked (ih _ _ _ _ h)

/-! ### From the course to the result -/

theorem SearchesInterfaces.eq {stack : List Fact} {met met' : Met} {state state' : σ}
    {isFound : Bool} (h : SearchesInterfaces look pass target stack met state isFound met' state') :
    searchInterfaces look pass target stack met state = some (isFound, met', state') := by
  induction h with
  | empty => rw [searchInterfaces]
  | declares declared => rw [searchInterfaces]; simp [declared]
  | next undeclared e _ ih => rw [searchInterfaces]; simp [undeclared, e, ih]

theorem SearchesClasses.eq {name? : Option TypeName} {met met' : Met} {state state' : σ}
    {verdict : Verdict} (h : SearchesClasses look pass target name? met state verdict met' state') :
    searchClasses look pass target name? met state = some (verdict, state') := by
  induction h with
  | top => rw [searchClasses]
  | again member => rw [searchClasses]; simp [member]
  | unknown fresh looked => rw [searchClasses]; simp [fresh, looked]
  | found fresh looked searched => rw [searchClasses]; simp [fresh, looked, searched.eq]
  | next fresh looked searched _ ih => rw [searchClasses]; simp [fresh, looked, searched.eq, ih]

/-- Unless the target is found, the verdict is that of what the pass has met. -/
theorem SearchesClasses.verdict_eq {name? : Option TypeName} {met met' : Met} {state state' : σ}
    {verdict : Verdict} (h : SearchesClasses look pass target name? met state verdict met' state') :
    verdict = .found ∨ verdict = met'.verdict := by
  induction h with
  | top | again | unknown => exact .inr rfl
  | found => exact .inl rfl
  | next _ _ _ _ ih => exact ih

theorem Climbs.eq {name? : Option TypeName} {met : List TypeName} {state state' : σ} {isMet : Bool}
    (h : Climbs look target name? met state isMet state') :
    climb look target name? met state = some (isMet, state') := by
  induction h with
  | top => rw [climb]
  | here => rw [climb]; simp
  | again other member => rw [climb]; simp [other, member]
  | unknown other fresh looked => rw [climb]; simp [other, fresh, looked]
  | next other fresh looked _ ih => rw [climb]; simp [other, fresh, looked, ih]

/-! ### What a walk has met -/

/-- A list of interfaces is met as a whole, and nothing is lost of what was there before. -/
theorem meets_of_meetInterfaces {names : List TypeName} {stack stack' : List Fact} {met met' : Met}
    {state state' : σ}
    (e : meetInterfaces look pass names stack met state = (stack', met', state')) :
    stack ⊆ stack' ∧ met.interfaces ⊆ met'.interfaces ∧ names ⊆ met'.interfaces ∧
      met'.classes = met.classes := by
  fun_induction meetInterfaces look pass names stack met state with
  | case1 =>
    cases e
    simp
  | case2 name rest stack met state member ih =>
    obtain ⟨stacked, more, all, classes⟩ := ih e
    exact ⟨stacked, more, List.cons_subset.mpr ⟨more member, all⟩, classes⟩
  | case3 name rest stack met state _ _ _ _ ih =>
    obtain ⟨stacked, more, all, classes⟩ := ih e
    obtain ⟨member, more⟩ := List.cons_subset.mp more
    exact ⟨stacked, more, List.cons_subset.mpr ⟨member, all⟩, classes⟩
  | case4 name rest stack met state _ _ upper _ _ stack₁ ih =>
    obtain ⟨stacked, more, all, classes⟩ := ih e
    obtain ⟨member, more⟩ := List.cons_subset.mp more
    refine ⟨fun fact waits => stacked ?_, more, List.cons_subset.mpr ⟨member, all⟩, classes⟩
    simp only [stack₁]
    split
    · exact waits
    · exact .tail _ waits

/-- Only the interfaces of the list are met. -/
theorem interfaces_of_meetInterfaces {names : List TypeName} {stack stack' : List Fact}
    {met met' : Met} {state state' : σ}
    (e : meetInterfaces look pass names stack met state = (stack', met', state')) :
    ∀ name ∈ met'.interfaces, name ∈ met.interfaces ∨ name ∈ names := by
  fun_induction meetInterfaces look pass names stack met state with
  | case1 =>
    cases e
    exact fun _ member => .inl member
  | case2 name rest stack met state member ih =>
    exact fun other member => (ih e other member).imp_right (.tail _)
  | case3 name rest stack met state fresh met₁ state₁ looked ih
  | case4 name rest stack met state fresh met₁ upper state₁ looked stack₁ ih =>
    intro other member
    rcases ih e other member with member | member
    · rcases List.mem_cons.mp member with rfl | member
      · exact .inr (.head _)
      · exact .inl member
    · exact .inr (.tail _ member)

theorem SearchesInterfaces.interfaces_subset {stack : List Fact} {met met' : Met}
    {state state' : σ} {isFound : Bool}
    (h : SearchesInterfaces look pass target stack met state isFound met' state') :
    met.interfaces ⊆ met'.interfaces := by
  induction h with
  | empty | declares => exact List.Subset.refl _
  | next _ e _ ih => exact List.Subset.trans (meets_of_meetInterfaces e).2.1 ih

theorem SearchesInterfaces.classes_eq {stack : List Fact} {met met' : Met} {state state' : σ}
    {isFound : Bool} (h : SearchesInterfaces look pass target stack met state isFound met' state') :
    met'.classes = met.classes := by
  induction h with
  | empty | declares => rfl
  | next _ e _ ih => exact ih.trans (meets_of_meetInterfaces e).2.2.2

theorem SearchesClasses.classes_subset {name? : Option TypeName} {met met' : Met}
    {state state' : σ} {verdict : Verdict}
    (h : SearchesClasses look pass target name? met state verdict met' state') :
    met.classes ⊆ met'.classes := by
  induction h with
  | top | again => exact List.Subset.refl _
  | unknown => simp
  | found _ _ searched => simp [searched.classes_eq]
  | next _ _ searched _ ih =>
    rw [searched.classes_eq] at ih
    exact (List.cons_subset.mp ih).2

/-! ### A full pass misses nothing -/

theorem complete_of_meetInterfaces_full {names : List TypeName} {stack stack' : List Fact}
    {met met' : Met} {state state' : σ}
    (e : meetInterfaces look .full names stack met state = (stack', met', state')) :
    met'.complete = met.complete := by
  fun_induction meetInterfaces look .full names stack met state with
  | case1 =>
    cases e
    rfl
  | case2 _ _ _ _ _ _ ih => exact ih e
  | case3 _ _ _ _ _ _ met₁ _ _ ih => simpa [met₁] using ih e
  | case4 _ _ _ _ _ _ _ _ _ _ _ ih => exact ih e

theorem SearchesInterfaces.complete_full {stack : List Fact} {met met' : Met} {state state' : σ}
    {isFound : Bool}
    (h : SearchesInterfaces look .full target stack met state isFound met' state') :
    met'.complete = met.complete := by
  induction h with
  | empty | declares => rfl
  | next _ e _ ih => exact ih.trans (complete_of_meetInterfaces_full e)

theorem SearchesClasses.complete_full {name? : Option TypeName} {met met' : Met}
    {state state' : σ} {verdict : Verdict}
    (h : SearchesClasses look .full target name? met state verdict met' state') :
    met'.complete = met.complete := by
  induction h with
  | top | again => rfl
  | unknown => simp
  | found _ _ searched => simpa using searched.complete_full
  | next _ _ searched _ ih => simpa [searched.complete_full] using ih

/-- A full pass finds the target or denies it. -/
theorem ne_inconclusive_of_full {name? : Option TypeName} {state state' : σ} {verdict : Verdict}
    (h : searchClasses look .full target name? {} state = some (verdict, state')) :
    verdict ≠ .inconclusive := by
  obtain ⟨met', course⟩ := SearchesClasses.of_eq h
  rcases course.verdict_eq with rfl | rfl
  · simp
  · simp [course.complete_full]

/-! ### What every look keeps, a walk keeps -/

/-- A look keeps the invariant, whatever it is asked. -/
def Keeps (look : Look σ) (inv : σ → Prop) : Prop :=
  ∀ name state, inv state → inv (look name state).2

namespace Keeps

variable {inv : σ → Prop}

theorem of_look (h : Keeps look inv) {name : TypeName} {state state' : σ} {answer : Option Fact}
    (valid : inv state) (looked : look name state = (answer, state')) : inv state' := by
  simpa [looked] using h name state valid

theorem of_meetInterfaces (h : Keeps look inv) {names : List TypeName} {stack stack' : List Fact}
    {met met' : Met} {state state' : σ} (valid : inv state)
    (e : meetInterfaces look pass names stack met state = (stack', met', state')) :
    inv state' := by
  fun_induction meetInterfaces look pass names stack met state with
  | case1 =>
    cases e
    exact valid
  | case2 _ _ _ _ _ _ ih => exact ih valid e
  | case3 _ _ _ _ _ _ _ _ looked ih => exact ih (h.of_look valid looked) e
  | case4 _ _ _ _ _ _ _ _ _ looked _ ih => exact ih (h.of_look valid looked) e

theorem of_searchesInterfaces (h : Keeps look inv) {stack : List Fact} {met met' : Met}
    {state state' : σ} {isFound : Bool} (valid : inv state)
    (searched : SearchesInterfaces look pass target stack met state isFound met' state') :
    inv state' := by
  induction searched with
  | empty | declares => exact valid
  | next _ e _ ih => exact ih (h.of_meetInterfaces valid e)

theorem of_searchesClasses (h : Keeps look inv) {name? : Option TypeName} {met met' : Met}
    {state state' : σ} {verdict : Verdict} (valid : inv state)
    (searched : SearchesClasses look pass target name? met state verdict met' state') :
    inv state' := by
  induction searched with
  | top | again => exact valid
  | unknown _ looked => exact h.of_look valid looked
  | found _ looked searched => exact h.of_searchesInterfaces (h.of_look valid looked) searched
  | next _ looked searched _ ih =>
    exact ih (h.of_searchesInterfaces (h.of_look valid looked) searched)

theorem of_climbs (h : Keeps look inv) {name? : Option TypeName} {met : List TypeName}
    {state state' : σ} {isMet : Bool} (valid : inv state)
    (climbs : Climbs look target name? met state isMet state') : inv state' := by
  induction climbs with
  | top | here | again => exact valid
  | unknown _ _ looked => exact h.of_look valid looked
  | next _ _ looked _ ih => exact ih (h.of_look valid looked)

end Keeps

end TypeLineage.Engine
