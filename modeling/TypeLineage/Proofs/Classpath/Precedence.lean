import TypeLineage.Proofs.Classpath.Names
import TypeLineage.Proofs.Classpath.Probes

/-!
# What takes precedence when a name is resolved

The first part of a written name is looked for among the single imports, in the package of the unit,
in the packages that are imported on demand, and at last in `java.lang`. The rules are stated as
relations (`Outer`, `Means`), and a written name is resolved to the one type that it means by them
(`resolve_eq_iff`).
-/

namespace TypeLineage

open Java

namespace Resolution

/-! ### The rules -/

/-- An import of a single type ends in a name. -/
def Names (imported : Java.Import) (name : String) : Prop :=
  imported.onDemand = false ∧
    (imported.path = name ∨ ∃ package, imported.path = package ++ "." ++ name)

/-- No import of a single type ends in the name. -/
def Unimported (unit : Java.Unit) (name : String) : Prop :=
  ∀ imported ∈ unit.imports, ¬ Names imported name

/-- The type that the first part of a written name means in a unit, if certain types are there. -/
inductive Outer (unit : Java.Unit) (There : TypeName → Prop) (head : String) : TypeName → Prop
  /-- The first single import that ends in the name decides, wherever it leads. -/
  | imported {before after : List Java.Import} {imported : Java.Import} :
    unit.imports = before ++ imported :: after → Names imported head →
      (∀ other ∈ before, ¬ Names other head) →
      Outer unit There head (.ofString imported.path)
  /-- Otherwise a type in the package of the unit comes first. -/
  | package :
    Unimported unit head → There (inPackage unit.package head) →
      Outer unit There head (inPackage unit.package head)
  /-- Then comes the first import on demand with such a type. -/
  | onDemand {before after : List Java.Import} {imported : Java.Import} :
    Unimported unit head → ¬ There (inPackage unit.package head) →
      unit.imports.filter Java.Import.onDemand = before ++ imported :: after →
      (∀ other ∈ before, ¬ There (inPackage other.path head)) →
      There (inPackage imported.path head) →
      Outer unit There head (inPackage imported.path head)
  /-- What is found nowhere is taken to be in `java.lang`. -/
  | fallback :
    Unimported unit head → ¬ There (inPackage unit.package head) →
      (∀ other ∈ unit.imports.filter Java.Import.onDemand, ¬ There (inPackage other.path head)) →
      Outer unit There head (inPackage "java.lang" head)

/-- The type that a written name means in a unit, if certain types are there. -/
inductive Means (unit : Java.Unit) (There : TypeName → Prop) (head : String) :
    Option String → TypeName → Prop
  /-- A name of one part means what its part means. -/
  | simple {outer : TypeName} : Outer unit There head outer → Means unit There head none outer
  /-- A name whose first part is not imported and starts with no capital letter is complete. -/
  | complete {member : String} : Unimported unit head → startsWithCapital head = false →
      Means unit There head (some member) (.ofString (head ++ "." ++ member))
  /-- Otherwise it means a member of what the first part means. -/
  | member {member : String} {outer : TypeName} :
      ¬ Unimported unit head ∨ startsWithCapital head = true → Outer unit There head outer →
      Means unit There head (some member) ⟨outer.internal ++ "$" ++ dollars member⟩

section Rules

variable {unit : Java.Unit} {exists? : TypeName → Bool} {head : String} {member? : Option String}

theorem isNamed_iff {imported : Java.Import} (whole : '.' ∉ head.toList) :
    (!imported.onDemand &&
        (imported.path.toList.reverse.takeWhile (· != '.')).reverse == head.toList) = true ↔
      Names imported head := by
  have texts : ∀ package : String, imported.path = package ++ "." ++ head ↔
      imported.path.toList = package.toList ++ '.' :: head.toList := by
    intro package
    rw [← String.toList_inj]
    simp
  rw [Bool.and_eq_true, Bool.not_eq_true', beq_iff_eq, behindLast_eq_iff whole, Names]
  constructor
  · rintro ⟨single, same | ⟨before, same⟩⟩
    · exact ⟨single, .inl (String.toList_inj.mp same)⟩
    · refine ⟨single, .inr ⟨String.ofList before, ?_⟩⟩
      rw [texts, same, String.toList_ofList]
  · rintro ⟨single, rfl | ⟨package, same⟩⟩
    · exact ⟨single, .inl rfl⟩
    · exact ⟨single, .inr ⟨package.toList, (texts package).mp same⟩⟩

theorem singleImport?_eq_none_iff (whole : '.' ∉ head.toList) :
    unit.singleImport? head = none ↔ Unimported unit head := by
  rw [Java.Unit.singleImport?, List.find?_eq_none]
  constructor
  · intro none imported member names
    exact none imported member ((isNamed_iff whole).mpr names)
  · intro none imported member named
    exact none imported member ((isNamed_iff whole).mp named)

theorem singleImport?_eq_some_iff (whole : '.' ∉ head.toList) {imported : Java.Import} :
    unit.singleImport? head = some imported ↔ Names imported head ∧ ∃ before after,
      unit.imports = before ++ imported :: after ∧ ∀ other ∈ before, ¬ Names other head := by
  rw [Java.Unit.singleImport?, List.find?_eq_some_iff_append, isNamed_iff whole]
  have unnamed : ∀ other : Java.Import,
      (!(!other.onDemand &&
        (other.path.toList.reverse.takeWhile (· != '.')).reverse == head.toList)) = true ↔
        ¬ Names other head := by
    intro other
    rw [Bool.not_eq_true', ← Bool.not_eq_true, isNamed_iff whole]
  simp only [unnamed]

/-- The first part of a name means a type as it is understood when it is written. -/
theorem Outer.exists_raw {There : TypeName → Prop} {outer : TypeName}
    (means : Outer unit There head outer) : ∃ raw, outer = .ofString raw := by
  cases means with
  | imported | package | onDemand | fallback => exact ⟨_, rfl⟩

/-- What is not imported by itself means the first of the types tried that there is. -/
theorem outer_resolveSimple (unimported : Unimported unit head) :
    Outer unit (exists? · = true) head (resolveSimple unit exists? head) := by
  show Outer unit _ head (((candidates unit head).find? exists?).getD _)
  rw [candidates, List.find?_cons]
  by_cases near : exists? (inPackage unit.package head) = true
  · rw [near]
    exact .package unimported near
  · rw [Bool.not_eq_true] at near
    rw [near]
    have far : ¬ exists? (inPackage unit.package head) = true := by simp [near]
    simp only [List.find?_map, Function.comp_def]
    cases found : unit.onDemandImports.find? fun other => exists? (inPackage other.path head) with
    | none =>
      exact .fallback unimported far (List.find?_eq_none.mp found)
    | some imported =>
      obtain ⟨there, before, after, split, skipped⟩ := List.find?_eq_some_iff_append.mp found
      refine .onDemand unimported far split ?_ there
      intro other member
      simpa using skipped other member

/-- What is not imported by itself means one type only. -/
theorem eq_resolveSimple_of_outer {outer : TypeName}
    (unimported : Unimported unit head) (means : Outer unit (exists? · = true) head outer) :
    outer = resolveSimple unit exists? head := by
  show outer = ((candidates unit head).find? exists?).getD _
  rw [candidates, List.find?_cons]
  cases means with
  | imported split names first =>
    exact absurd names (unimported _ (by simp [split]))
  | package _ near =>
    rw [near]
    rfl
  | @onDemand before after imported _ far split skipped there =>
    rw [Bool.not_eq_true] at far
    have found : unit.onDemandImports.find? (fun other => exists? (inPackage other.path head)) =
        some imported := by
      refine List.find?_eq_some_iff_append.mpr ⟨there, before, after, split, ?_⟩
      intro other member
      simpa using skipped other member
    simp only [far, List.find?_map, Function.comp_def, found]
    rfl
  | fallback _ far none =>
    rw [Bool.not_eq_true] at far
    have missed : unit.onDemandImports.find? (fun other => exists? (inPackage other.path head)) =
        Option.none :=
      List.find?_eq_none.mpr none
    simp only [far, List.find?_map, Function.comp_def, missed]
    rfl

/-- What is imported by itself means what the first such import says, or a member of it. -/
theorem resolve_of_imported {imported : Java.Import} (whole : '.' ∉ head.toList)
    (plain : ∀ member ∈ member?, Blankless member)
    (found : unit.singleImport? head = some imported) :
    resolve unit exists? (spelled head member?) = within (.ofString imported.path) member? := by
  simp only [resolve, cutName_spelled whole, found]
  cases member? with
  | none => rfl
  | some member => exact memberOf_ofString _ (plain member rfl)

/-- What is not imported by itself, and does not start with a package, means a type that is sought, or
a member of it. -/
theorem resolve_of_unimported (whole : '.' ∉ head.toList)
    (plain : ∀ member ∈ member?, Blankless member) (unimported : Unimported unit head)
    (upper : member? = none ∨ startsWithCapital head = true) :
    resolve unit exists? (spelled head member?) = within (resolveSimple unit exists? head) member? := by
  simp only [resolve, cutName_spelled whole, (singleImport?_eq_none_iff whole).mpr unimported]
  cases member? with
  | none => rfl
  | some member =>
    rcases upper with absent | capital
    · cases absent
    · have means : Outer unit (exists? · = true) head (resolveSimple unit exists? head) :=
        outer_resolveSimple unimported
      obtain ⟨raw, outer⟩ := means.exists_raw
      simp only [capital, outer, Bool.not_true, Bool.and_false, Bool.false_eq_true, if_false]
      exact memberOf_ofString raw (plain member rfl)

theorem Means.of_outer {There : TypeName → Prop} {outer : TypeName}
    (upper : member? = none ∨ ¬ Unimported unit head ∨ startsWithCapital head = true)
    (means : Outer unit There head outer) : Means unit There head member? (within outer member?) := by
  cases member? with
  | none => exact .simple means
  | some member =>
    rcases upper with absent | known
    · cases absent
    · exact .member known means

/-- A written name is resolved to what it means. -/
theorem means_resolve (whole : '.' ∉ head.toList) (plain : ∀ member ∈ member?, Blankless member) :
    Means unit (exists? · = true) head member? (resolve unit exists? (spelled head member?)) := by
  cases found : unit.singleImport? head with
  | some imported =>
    obtain ⟨names, before, after, split, first⟩ := (singleImport?_eq_some_iff whole).mp found
    have known : ¬ Unimported unit head := by
      intro unimported
      exact unimported imported (by simp [split]) names
    rw [resolve_of_imported whole plain found]
    exact .of_outer (.inr (.inl known)) (.imported split names first)
  | none =>
    have unimported := (singleImport?_eq_none_iff whole).mp found
    by_cases upper : member? = none ∨ startsWithCapital head = true
    · rw [resolve_of_unimported whole plain unimported upper]
      exact .of_outer (upper.imp_right .inr) (outer_resolveSimple unimported)
    · obtain ⟨member, rfl⟩ := Option.ne_none_iff_exists'.mp fun none => upper (.inl none)
      have small : startsWithCapital head = false := by simpa using upper
      simp only [resolve, cutName_spelled whole, found, small]
      exact .complete unimported small

/-- Either the first single import that ends in a name decides on it, or there is none. -/
theorem Outer.imported_or {There : TypeName → Prop} {outer : TypeName} (whole : '.' ∉ head.toList)
    (means : Outer unit There head outer) :
    (∃ imported, unit.singleImport? head = some imported ∧ outer = .ofString imported.path) ∨
      Unimported unit head := by
  cases means with
  | imported split names first =>
    exact .inl ⟨_, (singleImport?_eq_some_iff whole).mpr ⟨names, _, _, split, first⟩, rfl⟩
  | package unimported | onDemand unimported | fallback unimported => exact .inr unimported

theorem Outer.unique {outer other : TypeName} (whole : '.' ∉ head.toList)
    (means : Outer unit (exists? · = true) head outer)
    (also : Outer unit (exists? · = true) head other) : outer = other := by
  rcases means.imported_or whole with ⟨imported, found, rfl⟩ | unimported
  · rcases also.imported_or whole with ⟨_, again, rfl⟩ | unimported
    · rw [found] at again
      cases again
      rfl
    · rw [(singleImport?_eq_none_iff whole).mpr unimported] at found
      cases found
  · rw [eq_resolveSimple_of_outer unimported means, eq_resolveSimple_of_outer unimported also]

/-- A written name means one type only. -/
theorem Means.unique {resolved other : TypeName} (whole : '.' ∉ head.toList)
    (means : Means unit (exists? · = true) head member? resolved)
    (also : Means unit (exists? · = true) head member? other) : resolved = other := by
  cases means with
  | simple outer =>
    cases also with
    | simple outer' => exact outer.unique whole outer'
  | complete unimported small =>
    cases also with
    | complete => rfl
    | member known =>
      rcases known with known | capital
      · exact absurd unimported known
      · rw [small] at capital
        cases capital
  | member known outer =>
    cases also with
    | complete unimported small =>
      rcases known with known | capital
      · exact absurd unimported known
      · rw [small] at capital
        cases capital
    | member _ outer' => rw [outer.unique whole outer']

/-- A written name is resolved to the one type that it means. -/
theorem resolve_eq_iff {resolved : TypeName} (whole : '.' ∉ head.toList)
    (plain : ∀ member ∈ member?, Blankless member) :
    resolve unit exists? (spelled head member?) = resolved ↔
      Means unit (exists? · = true) head member? resolved := by
  constructor
  · rintro rfl
    exact means_resolve whole plain
  · intro means
    exact (means_resolve whole plain).unique whole means

end Rules

end Resolution

end TypeLineage
