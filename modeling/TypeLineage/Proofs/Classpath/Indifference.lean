import TypeLineage.Classpath.Root
import TypeLineage.Proofs.Classpath.History
import TypeLineage.Proofs.Classpath.Precedence
import TypeLineage.Proofs.Files.Edits
import TypeLineage.Proofs.Files.SourcePath

/-!
# What makes no difference to resolution

The rules of precedence ask the class path only whether certain types are there. So neither the order
of the roots makes a difference, nor any other file below them, nor the order of single imports that
end in different names (`resolution_follows_precedence`). Imports are reordered, and files put in and
taken out, in any number of steps (`Reordered`, `Root.Edited`); each kind of step is shown to change
nothing that the rules ask.
-/

namespace TypeLineage

open Java

namespace Resolution

/-- Nothing is tried for a written name but its first part in some packages. -/
theorem mem_candidates_of_mem_tried {unit : Java.Unit} {head : String} {member? : Option String}
    {name : TypeName} (whole : '.' ∉ head.toList)
    (member : name ∈ tried unit (spelled head member?)) : name ∈ candidates unit head := by
  simp only [tried, cutName_spelled whole] at member
  split at member
  · cases member
  · split at member
    · cases member
    · exact member

/-- Two imports are neither both on demand nor do both end in the same name. -/
def Exchangeable (one other : Import) : Prop :=
  (one.onDemand = false ∨ other.onDemand = false) ∧ ∀ name, ¬ (Names one name ∧ Names other name)

/-- Exchangeable imports that stand next to each other change places, time and again. -/
inductive Reordered : List Import → List Import → Prop
  /-- All stay where they are. -/
  | same (imports : List Import) : Reordered imports imports
  /-- Two neighbours change places. -/
  | exchange (before after : List Import) {one other : Import} : Exchangeable one other →
      Reordered (before ++ one :: other :: after) (before ++ other :: one :: after)
  /-- One exchange follows another. -/
  | trans {imports between others : List Import} :
    Reordered imports between → Reordered between others → Reordered imports others

namespace Reordered

/-- Imports of which no two are exchangeable stay in their order. -/
theorem filter_eq {p : Import → Bool}
    (rigid : ∀ {one other}, Exchangeable one other → p one = true → p other = false)
    {imports others : List Import} (reordered : Reordered imports others) :
    imports.filter p = others.filter p := by
  induction reordered with
  | same => rfl
  | trans _ _ first second => exact first.trans second
  | @exchange before after one other free =>
    cases kept : p one with
    | false => simp [List.filter_cons, kept]
    | true => simp [List.filter_cons, rigid free kept]

variable {unit other : Java.Unit}

/-- No import on demand passes another one. -/
theorem onDemandImports (reordered : Reordered unit.imports other.imports) :
    unit.onDemandImports = other.onDemandImports := by
  apply reordered.filter_eq
  intro one other free first
  rcases free.1 with single | single
  · rw [single] at first
    cases first
  · exact single

/-- The first single import that ends in a name stays the first one. -/
theorem singleImport? (reordered : Reordered unit.imports other.imports) {name : String}
    (whole : '.' ∉ name.toList) : unit.singleImport? name = other.singleImport? name := by
  rw [Unit.singleImport?, Unit.singleImport?, ← List.head?_filter, ← List.head?_filter]
  congr 1
  apply reordered.filter_eq
  intro one other free first
  rw [← Bool.not_eq_true, isNamed_iff whole]
  intro second
  exact free.2 name ⟨(isNamed_iff whole).mp first, second⟩

/-- What a written name is resolved to does not depend on the order of the single imports. -/
theorem resolve_eq (reordered : Reordered unit.imports other.imports)
    (package : unit.package = other.package) (exists? : TypeName → Bool) {head : String}
    (whole : '.' ∉ head.toList) (member? : Option String) :
    resolve unit exists? (spelled head member?) = resolve other exists? (spelled head member?) := by
  have simple : resolveSimple unit exists? head = resolveSimple other exists? head := by
    rw [resolveSimple, resolveSimple, package, reordered.onDemandImports]
  simp only [resolve, cutName_spelled whole, reordered.singleImport? whole, simple]

end Reordered

end Resolution

namespace Root

/-- Two roots are the same, but that archives may differ in whether they have some files. -/
inductive SameBut (files : List String) : Root → Root → Prop
  /-- A directory is looked up in the tree. -/
  | directory (path : Files.Path) : SameBut files (.directory path) (.directory path)
  /-- Archives have the same of all other files. -/
  | archive (path : Files.Path) {content other : Archive} :
    (∀ file, file ∉ files → content.hasEntry file = other.hasEntry file) →
      SameBut files (.archive path content) (.archive path other)

/-- Some roots in a tree become others in another tree: files are put in or taken out, in any number
of steps, but none where the unit of one of some types would be looked for. -/
inductive Edited (names : List TypeName) : Files.Disk → List Root → Files.Disk → List Root → Prop
  /-- Files of the tree are put in, taken out or written anew. -/
  | files {places : List Files.Place} {disk other : Files.Disk} {roots : List Root} :
    disk.SameBut places other →
    (∀ name ∈ names, ∀ path, Root.directory path ∈ roots → ∀ place ∈ places,
      disk.resolve (unitPath path name) ≠ .ok place ∧
        other.resolve (unitPath path name) ≠ .ok place) →
    Edited names disk roots other roots
  /-- Files are put in together with directories that are new. -/
  | directories {places : List Files.Place} {disk more : Files.Disk} {roots : List Root} :
    disk.Gains places more →
    (∀ path, Root.directory path ∈ roots → disk.isDirectory path = true) →
    (∀ name ∈ names, ∀ path, Root.directory path ∈ roots → ∀ place ∈ places,
      more.resolve (unitPath path name) ≠ .ok place) →
    Edited names disk roots more roots
  /-- Files are put into archives or taken out of them. -/
  | entries {files : List String} {disk : Files.Disk} {roots others : List Root} :
    List.Forall₂ (SameBut files) roots others → (∀ name ∈ names, name.sourcePath ∉ files) →
    Edited names disk roots disk others
  /-- What has been done is undone. -/
  | symm {disk other : Files.Disk} {roots others : List Root} :
    Edited names disk roots other others → Edited names other others disk roots
  /-- One step follows another. -/
  | trans {disk between other : Files.Disk} {roots middle others : List Root} :
    Edited names disk roots between middle → Edited names between middle other others →
    Edited names disk roots other others

/-- A list of roots has a type in both trees or in neither if each directory has. -/
theorem anyHas_congr {disk other : Files.Disk} {roots : List Root} {name : TypeName}
    (same : ∀ path, Root.directory path ∈ roots →
      disk.isFile (unitPath path name) = other.isFile (unitPath path name)) :
    anyHas disk roots name = anyHas other roots name := by
  rw [Bool.eq_iff_iff, anyHas, anyHas, List.any_eq_true, List.any_eq_true]
  have each : ∀ root ∈ roots, has disk name root = has other name root := by
    intro root member
    cases root with
    | directory path => exact same path member
    | archive path content => rfl
  constructor
  · rintro ⟨root, member, there⟩
    exact ⟨root, member, each root member ▸ there⟩
  · rintro ⟨root, member, there⟩
    exact ⟨root, member, (each root member).symm ▸ there⟩

theorem anyHas_of_sameBut {files : List String} {disk : Files.Disk} {roots others : List Root}
    {name : TypeName} (alike : List.Forall₂ (SameBut files) roots others)
    (spared : name.sourcePath ∉ files) : anyHas disk roots name = anyHas disk others name := by
  induction alike with
  | nil => rfl
  | @cons root other roots others same _ ih =>
    have first : has disk name root = has disk name other := by
      cases same with
      | directory path => rfl
      | archive path same => exact same _ spared
    rw [anyHas, anyHas] at ih
    rw [anyHas, anyHas, List.any_cons, List.any_cons, first, ih]

/-- Other files make no difference to whether any root has a type. -/
theorem Edited.anyHas_eq {names : List TypeName} {disk other : Files.Disk} {roots others : List Root}
    (edited : Edited names disk roots other others) {raw : String}
    (member : TypeName.ofString raw ∈ names) :
    anyHas disk roots (.ofString raw) = anyHas other others (.ofString raw) := by
  induction edited with
  | files edited spared =>
    apply anyHas_congr
    intro path inside
    exact edited.isFile_eq (spared _ member path inside)
  | directories gains there spared =>
    apply anyHas_congr
    intro path inside
    exact gains.isFile_join (there path inside) (TypeName.up_not_mem_sourcePath raw)
      (TypeName.endsBlank_sourcePath _) (spared _ member path inside)
  | entries alike spared => exact anyHas_of_sameBut alike (spared _ member)
  | symm _ ih => exact ih.symm
  | trans _ _ first second => exact first.trans second

end Root

namespace Resolution

/-- **Resolution follows the rules of precedence**: by them a supertype that a source text names is
resolved, whatever the class path is like. So the order of the roots makes no difference, nor does
that of single imports that end in different names, nor any file below the roots that is not tried
for the first part of the name. -/
theorem resolution_follows_precedence {source : String} {unit : Java.Unit} {declaration : Declaration}
    {written : String} (parsed : Unit.ofText? source = some unit)
    (declared : declaration ∈ unit.declarations) (named : written ∈ declaration.supertypes) :
    ∃ head member?, '.' ∉ head.toList ∧ written = spelled head member? ∧
      ∀ (disk : Files.Disk) (roots : List Root),
        (∀ resolved, resolve unit (Root.anyHas disk roots) written = resolved ↔
          Means unit (fun name => ∃ root ∈ roots, root.has disk name = true) head member? resolved) ∧
        (∀ others, roots.Perm others →
          resolve unit (Root.anyHas disk others) written =
            resolve unit (Root.anyHas disk roots) written) ∧
        (∀ other : Java.Unit, Reordered unit.imports other.imports → unit.package = other.package →
          resolve other (Root.anyHas disk roots) written =
            resolve unit (Root.anyHas disk roots) written) ∧
        (∀ (edited : Files.Disk) (others : List Root),
          Root.Edited (candidates unit head) disk roots edited others →
          resolve unit (Root.anyHas edited others) written =
            resolve unit (Root.anyHas disk roots) written) := by
  obtain ⟨head, member?, whole, rfl⟩ := exists_spelled written
  have plain : ∀ member ∈ member?, Blankless member :=
    blankless_of_spelled (Unit.blankless_of_mem_supertypes parsed declared named)
  refine ⟨head, member?, whole, rfl, ?_⟩
  intro disk roots
  refine ⟨?_, ?_, ?_, ?_⟩
  · intro resolved
    have there : (fun name => Root.anyHas disk roots name = true) =
        fun name => ∃ root ∈ roots, root.has disk name = true := by
      funext name
      rw [Root.anyHas, List.any_eq_true]
    rw [resolve_eq_iff whole plain, there]
  · intro others perm
    have same : Root.anyHas disk others = Root.anyHas disk roots := by
      funext name
      exact perm.any_eq.symm
    rw [same]
  · intro other reordered package
    exact (reordered.resolve_eq package _ whole member?).symm
  · intro edited others steps
    refine resolve_congr ?_
    intro name tried
    have member := mem_candidates_of_mem_tried whole tried
    obtain ⟨raw, rfl⟩ := exists_raw_of_mem_candidates member
    exact (steps.anyHas_eq member).symm

/-- A unit that imports a package on demand. -/
def heir : Java.Unit where
  imports := [{ path := "a", onDemand := true }]
  declarations := [{ kind := .class, name := "S", superclass := some "T" }]

/-- The type next to the unit is taken, not one of the imported package. -/
theorem neighbour_takes_precedence :
    resolve heir (Root.anyHas (Classpath.shelf .empty) [.directory ⟨"d"⟩]) "T" = ⟨"T"⟩ := by
  have parsed : Unit.ofText? "import a.*;class S extends T{}" = some heir := by decide +kernel
  obtain ⟨head, member?, whole, cut, rules⟩ :=
    resolution_follows_precedence parsed List.mem_cons_self List.mem_cons_self
  have parts : (head, member?) = ("T", none) := by
    rw [← cutName_spelled whole, ← cut]
    decide
  obtain ⟨rfl, rfl⟩ := Prod.mk.inj parts
  have segments : (Root.unitPath ⟨"d"⟩ ⟨"T"⟩).segments = ["d", "T.java"] := by decide
  have there : Root.has (Classpath.shelf .empty) ⟨"T"⟩ (.directory ⟨"d"⟩) = true :=
    (Classpath.shelf .empty).isFile_of_leadsDown segments (by decide) rfl rfl
  have near : inPackage heir.package "T" = ⟨"T"⟩ := by decide
  refine ((rules _ _).1 _).mpr (.simple ?_)
  rw [← near]
  refine .package ?_ ⟨_, List.mem_cons_self, near ▸ there⟩
  intro imported member names
  rw [List.mem_singleton.mp member] at names
  cases names.1

end Resolution

end TypeLineage
