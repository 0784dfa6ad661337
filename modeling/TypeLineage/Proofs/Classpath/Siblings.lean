import TypeLineage.Proofs.Classpath.Precedence
import TypeLineage.Proofs.Classpath.View

/-!
# Types that one unit declares together

A source text may declare several types on its top level. A supertype that is declared in the same
text is still sought by its file, as any other type is: if it has a file of its own in its package, it
is found there, and otherwise the text counts for nothing (`declared_type_needs_its_file`). So a class
that only stands next to its subclass is taken for one of another package
(`declared_type_without_file`).
-/

namespace TypeLineage

open Java

/-- A root that shows the text of a type has the type. -/
theorem Root.has_of_text? {sources : Files.Path → TypeName → Option ByteArray} {root : Root}
    {name : TypeName} {text : String} (shown : (root.view sources).text? name = some (some text)) :
    (root.view sources).has name = true := by
  cases root with
  | directory path =>
    obtain ⟨content, there, -⟩ := Option.map_eq_some_iff.mp shown
    simp [view, there]
  | archive path content =>
    obtain ⟨entry, listed, given⟩ := Option.map_eq_some_iff.mp shown
    obtain ⟨opened, opens, -⟩ := Option.bind_eq_some_iff.mp given
    show content.hasEntry name.sourcePath = true
    simp only [Archive.hasEntry, listed]
    cases result : content.openEntry entry with
    | error defect => simp [result, Except.toOption] at opens
    | ok opened => rfl

namespace Resolution

/-- **A declared type needs a file of its own.** A supertype, be it declared in the same unit or not,
is found in the package of the unit if it has a file of its own there, as the type has for which the
unit has been read. Otherwise it is sought in the packages that are imported on demand, and at last in
`java.lang`; what the unit declares plays no part. -/
theorem declared_type_needs_its_file {disk : Files.Disk} {roots : List Root} {name : TypeName}
    {unit : Java.Unit} {declaration : Declaration} {head : String} {member? : Option String}
    (found : View.declaration? (roots.map (Root.view disk.sourceIn?)) name = some (unit, declaration))
    (named : spelled head member? ∈ declaration.supertypes) (whole : '.' ∉ head.toList)
    (unimported : Unimported unit head)
    (upper : member? = none ∨ startsWithCapital head = true) :
    ((∃ root ∈ roots, root.has disk (inPackage unit.package head) = true) →
      resolve unit (Root.anyHas disk roots) (spelled head member?) =
        within (inPackage unit.package head) member?) ∧
    ((∀ root ∈ roots, root.has disk (inPackage unit.package head) = false) →
      resolve unit (Root.anyHas disk roots) (spelled head member?) =
        within (((unit.onDemandImports.map fun imported => inPackage imported.path head).find?
          (Root.anyHas disk roots)).getD (inPackage "java.lang" head)) member?) ∧
    (inPackage unit.package head = name →
      ∃ root ∈ roots, root.has disk (inPackage unit.package head) = true) := by
  obtain ⟨view, member, text, shown, parsed, listed⟩ := View.exists_text_of_declaration? found
  have plain : ∀ member ∈ member?, Blankless member :=
    blankless_of_spelled (Unit.blankless_of_mem_supertypes parsed listed named)
  rw [resolve_of_unimported whole plain unimported upper]
  refine ⟨?_, ?_, ?_⟩
  · rintro ⟨root, inside, there⟩
    have near : Root.anyHas disk roots (inPackage unit.package head) = true :=
      List.any_eq_true.mpr ⟨root, inside, there⟩
    rw [resolveSimple, List.find?_cons, near, Option.getD_some]
  · intro none
    have far : Root.anyHas disk roots (inPackage unit.package head) = false := by
      rw [Root.anyHas, List.any_eq_false]
      intro root inside
      rw [none root inside]
      exact Bool.false_ne_true
    rw [resolveSimple, List.find?_cons, far]
  · rintro rfl
    obtain ⟨root, inside, rfl⟩ := List.mem_map.mp member
    exact ⟨root, inside, (root.has_view disk _).symm.trans (Root.has_of_text? shown)⟩

/-- A unit that declares a class and its superclass. -/
def couple : Java.Unit where
  package := "a"
  declarations :=
    [{ kind := .class, name := "T", superclass := some "S" }, { kind := .class, name := "S" }]

/-- A directory with the text of the unit, and with other files. -/
def nook (others : List (Files.Place × Files.Node)) : Files.Disk where
  nodes := [(["d"], .directory), (["d", "a"], .directory),
    (["d", "a", "T.java"], .file "package a;class T extends S{} class S{}".toUTF8)] ++ others

theorem declaration?_nook (others : List (Files.Place × Files.Node)) :
    View.declaration? ([.directory ⟨"d"⟩].map (Root.view (nook others).sourceIn?)) ⟨"a/T"⟩ =
      some (couple, { kind := .class, name := "T", superclass := some "S" }) := by
  have segments : (Root.unitPath ⟨"d"⟩ ⟨"a/T"⟩).segments = ["d", "a", "T.java"] := by decide
  have shown : (nook others).sourceIn? ⟨"d"⟩ ⟨"a/T"⟩ =
      some "package a;class T extends S{} class S{}".toUTF8 := by
    rw [Files.Disk.sourceIn?, (nook others).read_of_leadsDown segments (by decide) rfl rfl]
    rfl
  have parsed : Unit.ofText? "package a;class T extends S{} class S{}" = some couple := by
    decide +kernel
  refine View.declaration?_of_text ?_ parsed rfl
  simp only [List.map_cons, List.map_nil, List.findSome?_cons, Root.view, shown, Option.map_some,
    fromUTF8?_toUTF8]

theorem unimported_couple (name : String) : Unimported couple name := by
  intro imported member
  cases member

/-- A file of its own is what a declared superclass is found by. -/
theorem declared_type_with_file :
    resolve couple
        (Root.anyHas (nook [(["d", "a", "S.java"], .file .empty)]) [.directory ⟨"d"⟩]) "S" =
      ⟨"a/S"⟩ := by
  have near : inPackage couple.package "S" = ⟨"a/S"⟩ := by decide
  have segments : (Root.unitPath ⟨"d"⟩ ⟨"a/S"⟩).segments = ["d", "a", "S.java"] := by decide
  have named : spelled "S" none ∈
      (Declaration.mk .class "T" (some "S") []).supertypes := List.mem_cons_self
  obtain ⟨its, -, -⟩ := declared_type_needs_its_file
    (declaration?_nook [(["d", "a", "S.java"], .file .empty)]) named (by decide)
    (unimported_couple "S") (.inl rfl)
  refine (its ⟨_, List.mem_cons_self, ?_⟩).trans near
  rw [near]
  exact (nook _).isFile_of_leadsDown segments (by decide) rfl rfl

theorem anyHas_nook : Root.anyHas (nook []) [.directory ⟨"d"⟩] ⟨"a/S"⟩ = false := by
  have segments : (Root.unitPath ⟨"d"⟩ ⟨"a/S"⟩).segments = ["d", "a", "S.java"] := by decide
  have absent : (nook []).resolve (Root.unitPath ⟨"d"⟩ ⟨"a/S"⟩) = .error .missing := by
    rw [Files.Disk.resolve, segments, if_neg (by decide)]
    show (nook []).follow 40 [] ["d", "a", "S.java"] = _
    rw [Files.Disk.follow_cons_of_node? _ _ (by decide) (by decide) rfl rfl (by simp),
      Files.Disk.follow_cons_of_node? _ _ (by decide) (by decide) rfl rfl (by simp),
      Files.Disk.follow_name _ _ _ (by decide) (by decide)]
    rfl
  simp [Root.anyHas, Root.has, Files.Disk.isFile, Files.Disk.at?, absent]

/-- **A declared type without a file is not found**: a superclass that is declared next to a class
need not be in the same package. -/
theorem declared_type_without_file :
    ¬ ∀ (disk : Files.Disk) (roots : List Root) (name : TypeName) (unit : Java.Unit)
      (declaration : Declaration) (head : String) (member? : Option String),
      View.declaration? (roots.map (Root.view disk.sourceIn?)) name = some (unit, declaration) →
      spelled head member? ∈ declaration.supertypes → '.' ∉ head.toList →
      (∃ sibling ∈ unit.declarations, sibling.name = head) → Unimported unit head →
      (member? = none ∨ startsWithCapital head = true) →
        resolve unit (Root.anyHas disk roots) (spelled head member?) =
          within (inPackage unit.package head) member? := by
  intro claim
  have near := claim (nook []) [.directory ⟨"d"⟩] ⟨"a/T"⟩ couple _ "S" none (declaration?_nook [])
    List.mem_cons_self (by decide) ⟨{ kind := .class, name := "S" }, by decide, rfl⟩
    (unimported_couple "S") (.inl rfl)
  have far : resolve couple (Root.anyHas (nook []) [.directory ⟨"d"⟩]) "S" = ⟨"java/lang/S"⟩ := by
    have tried : candidates couple "S" = [⟨"a/S"⟩] := by decide
    have fallback : inPackage "java.lang" "S" = ⟨"java/lang/S"⟩ := by decide
    rw [resolve_of_simple (by decide) (by decide), tried, List.find?_cons, anyHas_nook, fallback]
    rfl
  have package : inPackage couple.package "S" = ⟨"a/S"⟩ := by decide
  rw [spelled, far, package] at near
  exact absurd near (by decide)

end Resolution

end TypeLineage
