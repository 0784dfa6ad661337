import TypeLineage.Proofs.Walk.Simulation
import TypeLineage.Proofs.Walk.Soundness
import Mathlib.Data.List.Chain
import Mathlib.Data.Set.Card

/-!
# What a walk looks up

A look can be made to keep a record of what is looked up, and in which state, without any other
difference. From the record it is seen that a climb looks up the superclass chain of its start, one
class after the other, and a pass all that it meets: each class once and each interface once, and
nothing that is not reached by what is known at the end.
-/

namespace TypeLineage.Engine

open Relation Hierarchy Look

variable {σ : Type}

/-- A look at one name. -/
structure Lookup (σ : Type) where
  /-- The pass that looks. -/
  pass : Pass
  /-- The name. -/
  name : TypeName
  /-- The state in which it is looked up. -/
  state : σ

/-- A look that records what is looked up, the first look first. -/
def Look.recorded (pass : Pass) (look : Look σ) : Look (σ × List (Lookup σ)) :=
  fun name state =>
    ((look name state.1).1, (look name state.1).2, state.2 ++ [⟨pass, name, state.1⟩])

variable {look : Look σ} {pass : Pass} {target : TypeName} {inv : σ → Prop} {knows : σ → Facts}

/-- The record makes no difference. -/
theorem simulates_recorded (pass : Pass) (look : Look σ) :
    Simulates (fun state recording => recording.1 = state) look (look.recorded pass) := by
  rintro name state recording rfl
  exact ⟨rfl, rfl⟩

/-- A look adds itself to the record. -/
theorem record_of_look {name : TypeName} {state state' : σ × List (Lookup σ)}
    {answer : Option Fact} (looked : look.recorded pass name state = (answer, state')) :
    state'.2 = state.2 ++ [⟨pass, name, state.1⟩] := by
  cases looked
  rfl

/-- Looks that learn: they remember the facts that they give, and what they do not give is not known
afterwards. -/
structure Learns (look : Look σ) (inv : σ → Prop) (knows : σ → Facts) : Prop
    extends Remembers look inv knows where
  /-- What is not given is not known. -/
  denies : ∀ name state, inv state → (look name state).1 = none →
    knows (look name state).2 name = none

theorem Remembers.recorded (h : Remembers look inv knows) (pass : Pass) :
    Remembers (look.recorded pass) (fun state => inv state.1) fun state => knows state.1 where
  keeps name state valid := h.keeps name state.1 valid
  retains name state valid := h.retains name state.1 valid
  learns name state fact valid given := h.learns name state.1 fact valid given

/-- The names that have been looked up. -/
def namesOf (record : List (Lookup σ)) : List TypeName :=
  record.map Lookup.name

@[simp] theorem namesOf_append (record more : List (Lookup σ)) :
    namesOf (record ++ more) = namesOf record ++ namesOf more :=
  List.map_append

@[simp] theorem namesOf_singleton (lookup : Lookup σ) : namesOf [lookup] = [lookup.name] :=
  rfl

/-! ### The superclass chain -/

/-- The classes from a type upwards that come before a target: as far as there are facts, and no
further than to a class that has come before. -/
structure SuperclassChain (facts : Facts) (type target : TypeName) (chain : List TypeName) :
    Prop where
  /-- It begins with the type, unless that is the target. -/
  starts : chain.head? = if type = target then none else some type
  /-- Each class is followed by its superclass. -/
  steps : chain.IsChain (SuperclassOf facts)
  /-- The target is not one of them. -/
  before : target ∉ chain
  /-- No class comes twice. -/
  once : chain.Nodup
  /-- It does not end before it has to. -/
  whole : ∀ last ∈ chain.getLast?, ∀ upper, SuperclassOf facts last upper →
    upper = target ∨ upper ∈ chain

/-- All but the last of them have facts. -/
theorem SuperclassChain.length_le {facts : Facts} {type target : TypeName} {chain : List TypeName}
    (h : SuperclassChain facts type target chain) :
    (chain.length : ℕ∞) ≤ {name | (facts name).isSome}.encard + 1 := by
  have known : ∀ name ∈ chain.dropLast, (facts name).isSome := by
    have steps := h.steps
    clear h
    induction chain with
    | nil => simp
    | cons first rest ih =>
      obtain ⟨step, steps⟩ := List.isChain_cons.mp steps
      cases rest with
      | nil => simp
      | cons second rest =>
        obtain ⟨fact, known, -⟩ := step second rfl
        have here : (facts first).isSome := by simp [known]
        simpa [here] using ih steps
  have distinct : chain.dropLast.Nodup := h.once.sublist (List.dropLast_sublist _)
  have counted : (chain.dropLast.length : ℕ∞) ≤ {name | (facts name).isSome}.encard := by
    rw [← List.toFinset_card_of_nodup distinct, ← Set.encard_coe_eq_coe_finsetCard]
    exact Set.encard_le_encard fun name member => known name (by simpa using member)
  have one : chain.length ≤ chain.dropLast.length + 1 := by
    rw [List.length_dropLast]
    omega
  calc (chain.length : ℕ∞) ≤ (chain.dropLast.length + 1 : ℕ) := by exact_mod_cast one
    _ = chain.dropLast.length + 1 := by push_cast; rfl
    _ ≤ _ := by gcongr

/-- The same from the midst of a climb, when some classes have been met before. -/
structure Ascends (facts : Facts) (target : TypeName) (met : List TypeName)
    (next? : Option TypeName) (chain : List TypeName) : Prop where
  /-- It begins with the class that comes next. -/
  starts : ∀ name ∈ chain.head?, next? = some name
  /-- There is none only if the next class is the target or has been met. -/
  stops : ∀ name, next? = some name → chain = [] → name = target ∨ name ∈ met
  /-- Each class is followed by its superclass. -/
  steps : chain.IsChain (SuperclassOf facts)
  /-- The target is not one of them. -/
  before : target ∉ chain
  /-- No class comes twice. -/
  once : chain.Nodup
  /-- No class has been met before. -/
  fresh : ∀ name ∈ chain, name ∉ met
  /-- It does not end before it has to. -/
  whole : ∀ last ∈ chain.getLast?, ∀ upper, SuperclassOf facts last upper →
    upper = target ∨ upper ∈ met ∨ upper ∈ chain

namespace Ascends

variable {facts : Facts} {met chain : List TypeName} {name : TypeName} {next? : Option TypeName}

/-- The climb is over. -/
theorem nil (ends : ∀ name, next? = some name → name = target ∨ name ∈ met) :
    Ascends facts target met next? [] := by
  constructor <;> simp_all

/-- The next class has no fact. -/
theorem unknown (other : name ≠ target) (fresh : name ∉ met) (missing : facts name = none) :
    Ascends facts target met (some name) [name] := by
  constructor <;> simp_all [SuperclassOf, Ne.symm]

/-- The climb goes on with the superclass of the next class. -/
theorem cons {fact : Fact} (other : name ≠ target) (fresh : name ∉ met)
    (known : facts name = some fact)
    (h : Ascends facts target (name :: met) fact.superclass chain) :
    Ascends facts target met (some name) (name :: chain) where
  starts := by simp
  stops := by simp
  steps := by
    refine List.isChain_cons.mpr ⟨?_, h.steps⟩
    intro upper first
    exact ⟨fact, known, h.starts upper first⟩
  before := by simp [Ne.symm other, h.before]
  once := by
    refine List.nodup_cons.mpr ⟨?_, h.once⟩
    intro member
    exact h.fresh name member List.mem_cons_self
  fresh := by
    simp only [List.mem_cons, forall_eq_or_imp]
    refine ⟨fresh, ?_⟩
    intro cls member
    exact fun before => h.fresh cls member (.tail _ before)
  whole := by
    intro last ends upper edge
    -- What the rest of the climb has met before is met before this climb, or is its first class.
    cases chain with
    | nil =>
      obtain rfl : name = last := by simpa using ends
      obtain ⟨fact', known', above⟩ := edge
      rw [known] at known'
      cases known'
      rcases h.stops upper above rfl with same | member
      · exact .inl same
      · rcases List.mem_cons.mp member with rfl | member
        · exact .inr (.inr List.mem_cons_self)
        · exact .inr (.inl member)
    | cons second rest =>
      rw [List.getLast?_cons_cons] at ends
      rcases h.whole last ends upper edge with same | member | member
      · exact .inl same
      · rcases List.mem_cons.mp member with rfl | member
        · exact .inr (.inr List.mem_cons_self)
        · exact .inr (.inl member)
      · exact .inr (.inr (.tail _ member))

theorem superclassChain {type : TypeName} (h : Ascends facts target [] (some type) chain) :
    SuperclassChain facts type target chain where
  starts := by
    cases chain with
    | nil =>
      have reached : type = target := by simpa using h.stops type rfl rfl
      rw [if_pos reached, List.head?_nil]
    | cons first rest =>
      obtain rfl : type = first := Option.some.inj (h.starts first rfl)
      have other : type ≠ target := fun same => h.before (same ▸ List.mem_cons_self)
      rw [if_neg other, List.head?_cons]
  steps := h.steps
  before := h.before
  once := h.once
  whole last ends upper edge := by simpa using h.whole last ends upper edge

end Ascends

/-- What a climb looks up is the chain of what is known at its end. -/
theorem Learns.ascends_of_climbs (h : Learns look inv knows) {name? : Option TypeName}
    {met : List TypeName} {state state' : σ × List (Lookup σ)} {isMet : Bool} (valid : inv state.1)
    (climbs : Climbs (look.recorded pass) target name? met state isMet state') :
    ∃ record, state'.2 = state.2 ++ record ∧
      Ascends (knows state'.1) target met name? (namesOf record) := by
  have remembers := h.toRemembers.recorded pass
  induction climbs with
  | top => exact ⟨[], by simp, .nil (by simp)⟩
  | here => exact ⟨[], by simp, .nil (by simp)⟩
  | again other member => exact ⟨[], by simp, .nil (by simpa using .inr member)⟩
  | @unknown name met state state₁ other fresh looked =>
    have missing := h.denies name state.1 valid (congrArg Prod.fst looked)
    obtain rfl := congrArg Prod.snd looked
    exact ⟨[⟨pass, name, state.1⟩], rfl, .unknown other fresh missing⟩
  | @next name met state state₁ state₂ fact isMet other fresh looked rest ih =>
    have valid₁ := remembers.keeps.of_look valid looked
    have known := remembers.grows_of_climbs valid₁ rest _ _ (remembers.of_look valid looked)
    obtain ⟨record, added, ascends⟩ := ih valid₁
    refine ⟨⟨pass, name, state.1⟩ :: record, ?_, ascends.cons other fresh known⟩
    rw [added, record_of_look looked, List.append_assoc, List.singleton_append]

/-- A climb looks up the superclass chain of its start. -/
theorem Learns.chain_of_climb (h : Learns look inv knows) {type : TypeName}
    {state state' : σ × List (Lookup σ)} {isMet : Bool} (valid : inv state.1)
    (climbed : climb (look.recorded pass) target (some type) [] state = some (isMet, state')) :
    ∃ record, state'.2 = state.2 ++ record ∧
      SuperclassChain (knows state'.1) type target (namesOf record) := by
  obtain ⟨record, added, ascends⟩ := h.ascends_of_climbs valid (.of_eq climbed)
  exact ⟨record, added, ascends.superclassChain⟩

/-! ### What a pass meets -/

/-- What has been looked up is what has been met, nothing of it twice. -/
structure Met.Lists (met : Met) (names : List TypeName) : Prop where
  /-- The classes and the interfaces have been looked up. -/
  perm : names.Perm (met.classes ++ met.interfaces)
  /-- No class has been met twice. -/
  classes : met.classes.Nodup
  /-- No interface has been met twice. -/
  interfaces : met.interfaces.Nodup

namespace Met.Lists

variable {met : Met} {names : List TypeName} {name : TypeName}

theorem empty : Met.Lists {} [] := by
  constructor <;> simp

theorem addClass (h : met.Lists names) (fresh : name ∉ met.classes) :
    (met.addClass name).Lists (names ++ [name]) where
  perm := (List.perm_append_singleton name names).trans (h.perm.cons name)
  classes := List.nodup_cons.mpr ⟨fresh, h.classes⟩
  interfaces := h.interfaces

theorem addInterface (h : met.Lists names) (fresh : name ∉ met.interfaces) :
    (met.addInterface name).Lists (names ++ [name]) where
  perm := (List.perm_append_singleton name names).trans
    ((h.perm.cons name).trans List.perm_middle.symm)
  classes := h.classes
  interfaces := List.nodup_cons.mpr ⟨fresh, h.interfaces⟩

theorem lacking (h : met.Lists names) (pass : Pass) : (met.lacking pass).Lists names :=
  ⟨h.perm, h.classes, h.interfaces⟩

/-- A name is looked up twice at most, and twice only as class and as interface. -/
theorem count_le (h : met.Lists names) (name : TypeName) :
    names.count name ≤ 2 ∧
      (names.count name = 2 → name ∈ met.classes ∧ name ∈ met.interfaces) := by
  have classes := List.nodup_iff_count_le_one.mp h.classes name
  have interfaces := List.nodup_iff_count_le_one.mp h.interfaces name
  rw [h.perm.count_eq, List.count_append]
  refine ⟨by omega, ?_⟩
  intro twice
  rw [← List.count_pos_iff, ← List.count_pos_iff]
  omega

end Met.Lists

/-- What has been met is what has been looked up since there was another record. -/
def Met.ListsSince (before : List (Lookup σ)) (met : Met) (record : List (Lookup σ)) : Prop :=
  ∃ since, record = before ++ since ∧ met.Lists (namesOf since)

section ListsSince

variable {before : List (Lookup σ)} {met met' : Met} {state state' : σ × List (Lookup σ)}

/-- One more look, of which it is noted what is met. -/
theorem Met.ListsSince.noted (h : met.ListsSince before state.2) {name : TypeName}
    {answer : Option Fact} (looked : look.recorded pass name state = (answer, state'))
    (add : ∀ names, met.Lists names → met'.Lists (names ++ [name])) :
    met'.ListsSince before state'.2 := by
  obtain ⟨since, added, lists⟩ := h
  refine ⟨since ++ [⟨pass, name, state.1⟩], ?_, ?_⟩
  · rw [record_of_look looked, added, List.append_assoc]
  · rw [namesOf_append]
    exact add _ lists

theorem listsSince_of_meetInterfaces {names : List TypeName} {stack stack' : List Fact}
    (e : meetInterfaces (look.recorded pass) pass names stack met state = (stack', met', state'))
    (lists : met.ListsSince before state.2) : met'.ListsSince before state'.2 := by
  fun_induction meetInterfaces (look.recorded pass) pass names stack met state with
  | case1 =>
    cases e
    exact lists
  | case2 name rest stack met state member ih => exact ih e lists
  | case3 name rest stack met state fresh met₁ state₁ looked ih =>
    exact ih e (lists.noted looked fun _ h => (h.addInterface fresh).lacking pass)
  | case4 name rest stack met state fresh met₁ upper state₁ looked stack₁ ih =>
    exact ih e (lists.noted looked fun _ h => h.addInterface fresh)

theorem listsSince_of_searchesInterfaces {stack : List Fact} {isFound : Bool}
    (searched : SearchesInterfaces (look.recorded pass) pass target stack met state isFound met'
      state')
    (lists : met.ListsSince before state.2) : met'.ListsSince before state'.2 := by
  induction searched with
  | empty | declares => exact lists
  | next _ e _ ih => exact ih (listsSince_of_meetInterfaces e lists)

theorem listsSince_of_searchesClasses {name? : Option TypeName} {verdict : Verdict}
    (searched : SearchesClasses (look.recorded pass) pass target name? met state verdict met'
      state')
    (lists : met.ListsSince before state.2) : met'.ListsSince before state'.2 := by
  induction searched with
  | top | again => exact lists
  | unknown fresh looked =>
    exact lists.noted looked fun _ h => (h.addClass fresh).lacking pass
  | found fresh looked searched =>
    exact listsSince_of_searchesInterfaces searched (lists.noted looked fun _ h => h.addClass fresh)
  | next fresh looked searched _ ih =>
    exact ih (listsSince_of_searchesInterfaces searched
      (lists.noted looked fun _ h => h.addClass fresh))

end ListsSince

/-! ### What is met is reached -/

/-- The fact of a superclass of the type leads to the interface. -/
def Borders (facts : Facts) (type name : TypeName) : Prop :=
  ∃ cls fact, Extends facts type cls ∧ facts cls = some fact ∧ Leads facts fact name

/-- What has been met is reached from the type: the classes along superclasses only, the interfaces
from the fact of one of these. -/
structure Met.ReachedFrom (facts : Facts) (type : TypeName) (met : Met) : Prop where
  /-- Superclass edges lead to the classes. -/
  classes : ∀ name ∈ met.classes, Extends facts type name
  /-- The facts of such classes lead to the interfaces. -/
  interfaces : ∀ name ∈ met.interfaces, Borders facts type name

theorem Borders.across {facts : Facts} {type name upper : TypeName} (h : Borders facts type name)
    (edge : InterfaceOf facts name upper) : Borders facts type upper := by
  obtain ⟨cls, fact, up, known, first, declared, across⟩ := h
  exact ⟨cls, fact, up, known, first, declared, across.tail edge⟩

namespace Remembers

variable {facts : Facts} {type : TypeName} {met met' : Met} {state state' : σ}

/-- A search among what the fact of a superclass leads to meets nothing else. -/
theorem borders_of_searchesInterfaces (h : Remembers look inv knows) {stack : List Fact}
    {isFound : Bool} (valid : inv state) (grown : Grows (knows state') facts)
    (searched : SearchesInterfaces look pass target stack met state isFound met' state')
    (stacked : ∀ fact ∈ stack, ∀ name ∈ fact.interfaces, Borders facts type name)
    (borders : ∀ name ∈ met.interfaces, Borders facts type name) :
    ∀ name ∈ met'.interfaces, Borders facts type name := by
  induction searched with
  | empty | declares => exact borders
  | @next fact stack stack₁ met met₁ met₂ state state₁ state₂ isFound _ e rest ih =>
    have valid₁ := h.keeps.of_meetInterfaces valid e
    have own := stacked fact (.head _)
    refine ih valid₁ grown ?_ ?_
    · intro upper member name declared
      rcases h.of_meetInterfaces valid e upper member with member | ⟨first, near, known⟩
      · exact stacked upper (.tail _ member) name declared
      · have known' := grown _ _ (h.grows_of_searchesInterfaces valid₁ rest _ _ known)
        exact (own first near).across ⟨upper, known', declared⟩
    · intro name member
      exact (interfaces_of_meetInterfaces e name member).elim (borders name) (own name)

/-- One class of a pass, with the search among its interfaces. -/
theorem reachedFrom_of_class (h : Remembers look inv knows) {name : TypeName} {fact : Fact}
    {state₁ : σ} {isFound : Bool} (valid : inv state) (grown : Grows (knows state') facts)
    (looked : look name state = (some fact, state₁))
    (searched : SearchesInterfaces look pass target [fact] (met.addClass name) state₁ isFound met'
      state')
    (up : Extends facts type name) (reached : met.ReachedFrom facts type) :
    facts name = some fact ∧ met'.ReachedFrom facts type := by
  have valid₁ := h.keeps.of_look valid looked
  have known := grown _ _
    (h.grows_of_searchesInterfaces valid₁ searched _ _ (h.of_look valid looked))
  refine ⟨known, ?_, ?_⟩
  · rw [searched.classes_eq]
    simpa using ⟨up, reached.classes⟩
  · refine h.borders_of_searchesInterfaces valid₁ grown searched ?_ reached.interfaces
    simp only [List.mem_singleton, forall_eq]
    exact fun first declared => ⟨name, fact, up, known, .of_mem declared⟩

/-- A pass meets only what is reached from its start by what is known at its end. -/
theorem reachedFrom_of_searchesClasses (h : Remembers look inv knows) {name? : Option TypeName}
    {verdict : Verdict} (valid : inv state) (grown : Grows (knows state') facts)
    (searched : SearchesClasses look pass target name? met state verdict met' state')
    (start : ∀ name, name? = some name → Extends facts type name)
    (reached : met.ReachedFrom facts type) : met'.ReachedFrom facts type := by
  induction searched with
  | top | again => exact reached
  | @unknown name _ _ _ _ _ =>
    refine ⟨?_, reached.interfaces⟩
    simpa using ⟨start name rfl, reached.classes⟩
  | @found name _ _ _ _ _ _ _ looked searched =>
    exact (h.reachedFrom_of_class valid grown looked searched (start name rfl) reached).2
  | @next name _ _ _ _ _ _ _ fact _ _ looked searched rest ih =>
    have valid₂ := h.keeps.of_searchesInterfaces (h.keeps.of_look valid looked) searched
    have grown₂ := (h.grows_of_searchesClasses valid₂ rest).trans grown
    obtain ⟨known, reached₁⟩ :=
      h.reachedFrom_of_class valid grown₂ looked searched (start name rfl) reached
    refine ih valid₂ grown ?_ reached₁
    exact fun upper above => (start name rfl).tail ⟨fact, known, above⟩

end Remembers

/-- All that a pass looks up is met once as a class, or once as an interface, or both, and is reached
from its start by what is known at its end. -/
theorem Remembers.exists_met_of_pass (h : Remembers look inv knows) {type : TypeName}
    {state state' : σ × List (Lookup σ)} {verdict : Verdict} (valid : inv state.1)
    (searched : searchClasses (look.recorded pass) pass target (some type) {} state =
      some (verdict, state')) :
    ∃ record met, state'.2 = state.2 ++ record ∧ Met.Lists met (namesOf record) ∧
      met.ReachedFrom (knows state'.1) type := by
  obtain ⟨met, course⟩ := SearchesClasses.of_eq searched
  obtain ⟨record, added, lists⟩ :=
    listsSince_of_searchesClasses course ⟨[], (List.append_nil _).symm, .empty⟩
  have start : ∀ name, some type = some name → Extends (knows state'.1) type name := by
    intro name same
    exact Option.some.inj same ▸ .refl
  have reached : Met.ReachedFrom (knows state'.1) type {} := by
    constructor <;> simp
  exact ⟨record, met, added, lists,
    (h.recorded pass).reachedFrom_of_searchesClasses valid (.refl _) course start reached⟩

end TypeLineage.Engine
