import TypeLineage.Fact
import Mathlib.Logic.Relation

/-!
# The hierarchy that facts describe

Facts are given as a partial function from names. They may be wrong in every way: superclasses in a
circle, interfaces that extend each other, names without a fact.

An edge leads from a name with a fact to a name in that fact. A type *extends* what superclass edges
lead to, itself included. It *implements* an interface if a fact declares the interface that is
reached by superclass edges first and interface edges then; superclasses of interfaces do not count,
and the interface itself needs no fact.
-/

namespace TypeLineage.Hierarchy

open Relation

/-- What is known of types, by name. -/
abbrev Facts : Type := TypeName → Option Fact

variable {facts more : Facts} {type name target : TypeName} {fact : Fact}

/-- The fact of the lower name names the upper one as superclass. -/
def SuperclassOf (facts : Facts) (lower upper : TypeName) : Prop :=
  ∃ fact, facts lower = some fact ∧ fact.superclass = some upper

/-- The fact of the lower name declares the upper one as interface. -/
def InterfaceOf (facts : Facts) (lower upper : TypeName) : Prop :=
  ∃ fact, facts lower = some fact ∧ upper ∈ fact.interfaces

/-- Zero or more superclass edges lead from the type to the class. -/
def Extends (facts : Facts) (type target : TypeName) : Prop :=
  ReflTransGen (SuperclassOf facts) type target

/-- Zero or more superclass edges and then zero or more interface edges lead from the type to the
name. -/
def Reaches (facts : Facts) (type name : TypeName) : Prop :=
  ∃ cls, Extends facts type cls ∧ ReflTransGen (InterfaceOf facts) cls name

/-- A fact that is reached from the type declares the interface. -/
def Implements (facts : Facts) (type target : TypeName) : Prop :=
  ∃ name fact, Reaches facts type name ∧ facts name = some fact ∧ target ∈ fact.interfaces

/-- An interface that the fact declares leads to the name by zero or more interface edges. -/
def Leads (facts : Facts) (fact : Fact) (name : TypeName) : Prop :=
  ∃ first ∈ fact.interfaces, ReflTransGen (InterfaceOf facts) first name

/-- What the lesser facts say the others say too. -/
def Grows (facts more : Facts) : Prop :=
  ∀ name fact, facts name = some fact → more name = some fact

theorem Grows.refl (facts : Facts) : Grows facts facts := fun _ _ h => h

theorem Grows.trans {most : Facts} (h : Grows facts more) (h' : Grows more most) :
    Grows facts most :=
  fun name fact known => h' name fact (h name fact known)

theorem Grows.superclassOf (h : Grows facts more) {lower upper : TypeName} :
    SuperclassOf facts lower upper → SuperclassOf more lower upper := by
  rintro ⟨fact, known, edge⟩
  exact ⟨fact, h _ _ known, edge⟩

theorem Grows.interfaceOf (h : Grows facts more) {lower upper : TypeName} :
    InterfaceOf facts lower upper → InterfaceOf more lower upper := by
  rintro ⟨fact, known, edge⟩
  exact ⟨fact, h _ _ known, edge⟩

theorem Grows.extends (h : Grows facts more) (up : Extends facts type target) :
    Extends more type target :=
  ReflTransGen.mono (fun _ _ => h.superclassOf) _ _ up

theorem Grows.across (h : Grows facts more) (across : ReflTransGen (InterfaceOf facts) type name) :
    ReflTransGen (InterfaceOf more) type name :=
  ReflTransGen.mono (fun _ _ => h.interfaceOf) _ _ across

theorem Grows.reaches (h : Grows facts more) :
    Reaches facts type name → Reaches more type name := by
  rintro ⟨cls, up, across⟩
  exact ⟨cls, h.extends up, h.across across⟩

/-- More facts leave no interface unimplemented. -/
theorem Grows.implements (h : Grows facts more) :
    Implements facts type target → Implements more type target := by
  rintro ⟨name, fact, reached, known, declared⟩
  exact ⟨name, fact, h.reaches reached, h _ _ known, declared⟩

theorem Leads.of_mem (h : name ∈ fact.interfaces) : Leads facts fact name :=
  ⟨name, h, .refl⟩

/-- A declared interface leads on to what its own fact leads to. -/
theorem Leads.through {upper : Fact} (declared : name ∈ fact.interfaces)
    (known : facts name = some upper) (h : Leads facts upper target) : Leads facts fact target := by
  obtain ⟨first, declared', across⟩ := h
  exact ⟨name, declared, .head ⟨upper, known, declared'⟩ across⟩

/-- The facts of the classes lead to all that is reached across interfaces. -/
theorem implements_iff_leads :
    Implements facts type target ↔
      ∃ cls fact, Extends facts type cls ∧ facts cls = some fact ∧ Leads facts fact target := by
  constructor
  · rintro ⟨name, last, ⟨cls, up, across⟩, known, declared⟩
    have edges : TransGen (InterfaceOf facts) cls target := .tail' across ⟨last, known, declared⟩
    obtain ⟨first, ⟨fact, known', declared'⟩, across'⟩ := TransGen.head'_iff.mp edges
    exact ⟨cls, fact, up, known', first, declared', across'⟩
  · rintro ⟨cls, fact, up, known, first, declared, across⟩
    have edges : TransGen (InterfaceOf facts) cls target :=
      TransGen.head'_iff.mpr ⟨first, ⟨fact, known, declared⟩, across⟩
    obtain ⟨name, across', last, known', declared'⟩ := TransGen.tail'_iff.mp edges
    exact ⟨name, last, ⟨cls, up, across'⟩, known', declared'⟩

theorem Reaches.refl (facts : Facts) (type : TypeName) : Reaches facts type type :=
  ⟨type, .refl, .refl⟩

/-- A class reaches what its superclass reaches. -/
theorem Reaches.of_superclass {upper : TypeName} (edge : SuperclassOf facts type upper)
    (h : Reaches facts upper name) : Reaches facts type name := by
  obtain ⟨cls, up, across⟩ := h
  exact ⟨cls, .head edge up, across⟩

/-- A class implements what its superclass implements. -/
theorem Implements.of_superclass {upper : TypeName} (edge : SuperclassOf facts type upper)
    (h : Implements facts upper target) : Implements facts type target := by
  obtain ⟨name, fact, reaches, known, declared⟩ := h
  exact ⟨name, fact, reaches.of_superclass edge, known, declared⟩

/-- What a type reaches is one of its classes or what the fact of one leads to. -/
theorem reaches_iff_leads :
    Reaches facts type name ↔
      Extends facts type name ∨
        ∃ cls fact, Extends facts type cls ∧ facts cls = some fact ∧ Leads facts fact name := by
  constructor
  · rintro ⟨cls, up, across⟩
    rcases ReflTransGen.cases_head across with rfl | ⟨first, ⟨fact, known, declared⟩, rest⟩
    · exact .inl up
    · exact .inr ⟨cls, fact, up, known, first, declared, rest⟩
  · rintro (up | ⟨cls, fact, up, known, first, declared, rest⟩)
    · exact ⟨name, up, .refl⟩
    · exact ⟨cls, up, .head ⟨fact, known, declared⟩ rest⟩

end TypeLineage.Hierarchy
