import TypeLineage.Classpath.Resolution
import Mathlib.Data.List.Find

/-!
# Which types resolution asks for

What a written name means depends on which types there are, but only on those that are tried for it:
the type of its first part in the package of the unit, and in each package that is imported on
demand. For a name that is imported by itself, or that starts with a package, nothing is tried.
-/

namespace TypeLineage.Resolution

variable {unit : Java.Unit} {exists? exists?' : TypeName → Bool}

/-- The types that are tried, one after the other, for a simple name. -/
def candidates (unit : Java.Unit) (simple : String) : List TypeName :=
  inPackage unit.package simple ::
    unit.onDemandImports.map fun imported => inPackage imported.path simple

/-- The types that are tried for a written name. -/
def tried (unit : Java.Unit) (written : String) : List TypeName :=
  let (head, member?) := cutName written
  match unit.singleImport? head with
  | some _ => []
  | none => if member?.isSome && !startsWithCapital head then [] else candidates unit head

/-- The types that are tried for the supertypes of a declaration. -/
def probes (unit : Java.Unit) (declaration : Java.Declaration) : List TypeName :=
  (declaration.superclass.toList ++ declaration.interfaces).flatMap (tried unit)

theorem resolveSimple_congr {simple : String}
    (same : ∀ other ∈ candidates unit simple, exists? other = exists?' other) :
    resolveSimple unit exists? simple = resolveSimple unit exists?' simple := by
  show ((candidates unit simple).find? exists?).getD _ =
    ((candidates unit simple).find? exists?').getD _
  rw [List.find?_congr same]

theorem resolve_congr {written : String}
    (same : ∀ other ∈ tried unit written, exists? other = exists?' other) :
    resolve unit exists? written = resolve unit exists?' written := by
  unfold tried at same
  unfold resolve
  cases cut : cutName written with
  | mk head member? =>
  simp only [cut] at same ⊢
  cases imported : unit.singleImport? head with
  | some _ => rfl
  | none =>
    simp only [imported] at same ⊢
    split
    case isTrue => rfl
    case isFalse simple =>
      rw [if_neg simple] at same
      rw [resolveSimple_congr same]

/-- A simple name that is not imported by itself means the first of the types tried that there is. -/
theorem resolve_of_simple {written : String} (simple : cutName written = (written, none))
    (unimported : unit.singleImport? written = none) :
    resolve unit exists? written =
      ((candidates unit written).find? exists?).getD (inPackage "java.lang" written) := by
  simp only [resolve, simple, unimported]
  rfl

/-- The fact about a declaration depends on the types that are tried for its supertypes only. -/
theorem fact_congr {name : TypeName} {declaration : Java.Declaration}
    (same : ∀ other ∈ probes unit declaration, exists? other = exists?' other) :
    fact unit exists? name declaration = fact unit exists?' name declaration := by
  have resolved : ∀ written ∈ declaration.superclass.toList ++ declaration.interfaces,
      resolve unit exists? written = resolve unit exists?' written := by
    intro written member
    refine resolve_congr fun other inside => same other ?_
    exact List.mem_flatMap.mpr ⟨written, member, inside⟩
  have upper : superclass unit exists? name declaration =
      superclass unit exists?' name declaration := by
    unfold superclass
    cases declaration.kind with
    | «class» =>
      cases named : declaration.superclass with
      | none => rfl
      | some written =>
        have meant := resolved written (by simp [named])
        simp only [meant]
    | interface | annotationType | enumeration | record => rfl
  have across : interfaces unit exists? declaration = interfaces unit exists?' declaration := by
    unfold interfaces
    rw [List.map_congr_left fun written member =>
      resolved written (List.mem_append_right _ member)]
  rw [fact, fact, upper, across]

/-- Only names as they are understood when they are written are tried. -/
theorem exists_raw_of_mem_candidates {simple : String} {name : TypeName}
    (member : name ∈ candidates unit simple) : ∃ raw, name = .ofString raw := by
  rcases List.mem_cons.mp member with rfl | inside
  · exact ⟨_, rfl⟩
  · obtain ⟨imported, -, rfl⟩ := List.mem_map.mp inside
    exact ⟨_, rfl⟩

theorem exists_raw_of_mem_probes {declaration : Java.Declaration} {other : TypeName}
    (member : other ∈ probes unit declaration) : ∃ raw, other = .ofString raw := by
  obtain ⟨written, -, inside⟩ := List.mem_flatMap.mp member
  unfold tried at inside
  cases cut : cutName written with
  | mk head member? =>
  simp only [cut] at inside
  cases imported : unit.singleImport? head with
  | some _ => simp [imported] at inside
  | none =>
    simp only [imported] at inside
    split at inside
    case isTrue => cases inside
    case isFalse => exact exists_raw_of_mem_candidates inside

end TypeLineage.Resolution
