import TypeLineage.Proofs.Classpath.History

/-!
# The first root that has a file

A reader looks for the source file of a type in one root after the other, and the first root that has
the file decides: what it says is the answer, and if it says nothing there is no answer
(`read_by_first_root`). Of the other roots it matters only which types they have, since this is what
the written names of supertypes are resolved by.

What a file says is a relation (`FileTells`): nothing if it is no text, if it is blank, or if it does not
declare the type, and otherwise the fact about the first declaration of that name (`Describes`).
-/

namespace TypeLineage

open Java

namespace Root

variable {disk : Files.Disk} {name : TypeName} {root : Root}

/-- A root has something at the source path of a type. -/
def HasFile (disk : Files.Disk) (name : TypeName) : Root → Prop
  | .directory path => disk.isFile (unitPath path name) = true
  | .archive _ content => ∃ entry, content.entry? name.sourcePath = some entry

/-- The bytes that a root has at the source path of a type, if they can be read. -/
def bytes? (disk : Files.Disk) (name : TypeName) : Root → Option ByteArray
  | .directory path => (disk.read (unitPath path name)).toOption
  | .archive _ content => (content.entry? name.sourcePath).bind fun entry =>
      (content.openEntry entry).toOption.bind fun opened => opened.content.toOption

/-- A root with the file shows its text, or that it is none. -/
theorem text?_of_hasFile (has : root.HasFile disk name) :
    (root.view disk.sourceIn?).text? name = some ((root.bytes? disk name).bind String.fromUTF8?) := by
  cases root with
  | directory path =>
    have file : disk.isFile (unitPath path name) = true := has
    rw [disk.isFile_eq, Option.isSome_iff_exists] at file
    obtain ⟨bytes, read⟩ := file
    simp only [view, Files.Disk.sourceIn?, bytes?, read, Option.map_some, Option.bind_some]
  | archive path content =>
    obtain ⟨entry, listed⟩ := has
    simp only [view, bytes?, listed, Option.map_some, Option.bind_some, Archive.Opened.toOption_text,
      Option.bind_assoc]

/-- A root without the file shows nothing. -/
theorem text?_of_not_hasFile (has : ¬ root.HasFile disk name) :
    (root.view disk.sourceIn?).text? name = none := by
  cases root with
  | directory path =>
    have file : disk.isFile (unitPath path name) = false := by simpa [HasFile] using has
    rw [disk.isFile_eq, Option.isSome_eq_false_iff, Option.isNone_iff_eq_none] at file
    simp only [view, Files.Disk.sourceIn?, file, Option.map_none]
  | archive path content =>
    have listed : content.entry? name.sourcePath = none := by
      rw [Option.eq_none_iff_forall_ne_some]
      intro entry listed
      exact has ⟨entry, listed⟩
    simp only [view, listed, Option.map_none]

theorem findSome?_text? {before after : List Root} (first : ∀ other ∈ before, ¬ other.HasFile disk name)
    (has : root.HasFile disk name) :
    (((before ++ root :: after).map (view disk.sourceIn?)).findSome? fun shown => shown.text? name) =
      some ((root.bytes? disk name).bind String.fromUTF8?) := by
  have skipped : (before.map (view disk.sourceIn?)).findSome? (fun shown => shown.text? name) =
      none := by
    rw [List.findSome?_eq_none_iff]
    intro shown member
    obtain ⟨other, inside, rfl⟩ := List.mem_map.mp member
    exact text?_of_not_hasFile (first other inside)
  rw [List.map_append, List.findSome?_append, skipped, Option.none_or, List.map_cons,
    List.findSome?_cons, text?_of_hasFile has]

end Root

namespace Resolution

/-- The superclass that a declaration gives a type, if certain types are there. -/
inductive Superclass (unit : Java.Unit) (exists? : TypeName → Bool) (name : TypeName)
    (declaration : Declaration) : Option TypeName → Prop
  /-- A class may name one. -/
  | written {superclass : String} : declaration.kind = .class →
    declaration.superclass = some superclass →
    Superclass unit exists? name declaration (some (resolve unit exists? superclass))
  /-- The class on top of all others has none. -/
  | top : declaration.kind = .class → declaration.superclass = none → name = .object →
    Superclass unit exists? name declaration none
  /-- Every other class without a named one has this one on top. -/
  | implied : declaration.kind = .class → declaration.superclass = none → name ≠ .object →
    Superclass unit exists? name declaration (some .object)
  /-- So have interfaces, and annotation types. -/
  | interface : declaration.kind = .interface ∨ declaration.kind = .annotationType →
    Superclass unit exists? name declaration (some .object)
  /-- Enumerations have their own. -/
  | enumeration : declaration.kind = .enumeration →
    Superclass unit exists? name declaration (some .enumeration)
  /-- And so have records. -/
  | record : declaration.kind = .record → Superclass unit exists? name declaration (some .record)

/-- A fact is what a declaration says of a type, if certain types are there. -/
structure Describes (unit : Java.Unit) (exists? : TypeName → Bool) (name : TypeName)
    (declaration : Declaration) (fact : Fact) : Prop where
  /-- It is about the type. -/
  subject : fact.subject = name
  /-- It has the superclass. -/
  superclass : Superclass unit exists? name declaration fact.superclass
  /-- Only the class on top of all others has none. -/
  top : fact.superclass = none ↔
    name = .object ∧ declaration.kind = .class ∧ declaration.superclass = none
  /-- It has the named interfaces in their order, and annotation types have one more. -/
  interfaces : ∃ implied, fact.interfaces =
      declaration.interfaces.map (resolve unit exists?) ++ implied ∧
    (declaration.kind = .annotationType → implied = [.annotationInterface]) ∧
    (declaration.kind ≠ .annotationType → implied = [])

variable {unit : Java.Unit} {exists? : TypeName → Bool} {name : TypeName} {declaration : Declaration}

theorem superclass_superclass :
    Superclass unit exists? name declaration (superclass unit exists? name declaration) := by
  unfold superclass
  cases kind : declaration.kind with
  | interface => exact .interface (.inl kind)
  | annotationType => exact .interface (.inr kind)
  | enumeration => exact .enumeration kind
  | record => exact .record kind
  | «class» =>
    cases named : declaration.superclass with
    | some written => exact .written kind named
    | none =>
      by_cases top : name = .object
      · simp only [if_pos top]
        exact .top kind named top
      · simp only [if_neg top]
        exact .implied kind named top

theorem Superclass.eq_none_iff {upper : Option TypeName}
    (given : Superclass unit exists? name declaration upper) : upper = none ↔
      name = .object ∧ declaration.kind = .class ∧ declaration.superclass = none := by
  cases given with
  | written kind named => simp [named]
  | top kind named top => simp [kind, named, top]
  | implied kind named other => simp [other]
  | interface kind =>
    rcases kind with kind | kind
    · simp [kind]
    · simp [kind]
  | enumeration kind | record kind => simp [kind]

theorem describes_fact :
    Describes unit exists? name declaration (fact unit exists? name declaration) where
  subject := rfl
  superclass := superclass_superclass
  top := superclass_superclass.eq_none_iff
  interfaces := by
    refine ⟨_, rfl, ?_, ?_⟩
    · intro kind
      exact if_pos kind
    · intro kind
      exact if_neg kind

end Resolution

namespace Classpath

/-- What is said of a type in a file of a certain text, or of none, if certain types are there. -/
inductive FileTells (exists? : TypeName → Bool) (name : TypeName) :
    Option String → Option Fact → Prop
  /-- Nothing if the file is no text. -/
  | unreadable : FileTells exists? name none none
  /-- Nothing if the text is blank. -/
  | blank {text : String} : (∀ c ∈ text.toList, Text.isBlank c = true) →
    FileTells exists? name (some text) none
  /-- Nothing if the text does not declare the type. -/
  | undeclared {text : String} {unit : Java.Unit} : Unit.ofText? text = some unit →
    (∀ declaration ∈ unit.declarations, declaration.name ≠ name.simple) →
    FileTells exists? name (some text) none
  /-- Otherwise what its first declaration of that name says. -/
  | declared {text : String} {unit : Java.Unit} {before after : List Declaration}
    {declaration : Declaration} {fact : Fact} : Unit.ofText? text = some unit →
    unit.declarations = before ++ declaration :: after → declaration.name = name.simple →
    (∀ other ∈ before, other.name ≠ name.simple) →
    Resolution.Describes unit exists? name declaration fact →
    FileTells exists? name (some text) (some fact)

theorem FileTells.eq_none {exists? : TypeName → Bool} {name : TypeName} {answer : Option Fact}
    (told : FileTells exists? name none answer) : answer = none := by
  cases told
  rfl

/-- The answer is what the text says that is found first. -/
theorem fileTells_factOf {views : List View} {name : TypeName} {text? : Option String}
    (shown : (views.findSome? fun view => view.text? name) = some text?) :
    FileTells (fun other => views.any fun view => view.has other) name text? (View.factOf views name) := by
  rw [View.factOf, View.declaration?, shown, Option.join_some]
  cases text? with
  | none => exact .unreadable
  | some text =>
    cases parsed : Unit.ofText? text with
    | none =>
      simp only [Option.bind_some, parsed, Option.bind_none, Option.map_none]
      refine .blank ?_
      unfold Unit.ofText? at parsed
      split at parsed
      case isTrue blank => exact List.all_eq_true.mp blank
      case isFalse => cases parsed
    | some unit =>
      simp only [Option.bind_some, parsed, Option.map_map]
      cases found : unit.declaration? name.simple with
      | none =>
        refine .undeclared parsed ?_
        intro declaration member same
        exact List.find?_eq_none.mp found declaration member (beq_iff_eq.mpr same)
      | some declaration =>
        obtain ⟨same, before, after, split, first⟩ := List.find?_eq_some_iff_append.mp found
        refine .declared parsed split (beq_iff_eq.mp same) ?_ Resolution.describes_fact
        intro other member
        simpa using first other member

theorem factOf_congr_shown {views others : List View} {name : TypeName}
    (shown : (views.findSome? fun view => view.text? name) =
      others.findSome? fun view => view.text? name)
    (has : ∀ other, (views.any fun view => view.has other) = others.any fun view => view.has other) :
    View.factOf views name = View.factOf others name := by
  rw [View.factOf, View.factOf, View.declaration?, View.declaration?, shown, funext has]

/-- **The first root decides**: the first of the roots in use that has the file of a type settles
what is told of the type, and if there is none nothing is told. The file of a later root counts for
nothing, even if that of the first one is of no use: other roots in place of the later ones make no
difference if the same types are there. -/
theorem read_by_first_root (reader : Reader) (world : World) (name : TypeName) :
    ((∀ root ∈ (reader.roots world).1, ¬ root.HasFile world.disk name) →
      (reader.read name world).1 = none) ∧
    ∀ before root after, (reader.roots world).1 = before ++ root :: after →
      (∀ other ∈ before, ¬ other.HasFile world.disk name) → root.HasFile world.disk name →
        FileTells (Root.anyHas world.disk (reader.roots world).1) name
          ((root.bytes? world.disk name).bind String.fromUTF8?) (reader.read name world).1 ∧
        ∀ later, (∀ other, Root.anyHas world.disk (before ++ root :: later) other =
            Root.anyHas world.disk (reader.roots world).1 other) →
          ({ reader with opened := some (before ++ root :: later) }.read name world).1 =
            (reader.read name world).1 := by
  simp only [Reader.read_fst]
  constructor
  · intro none
    have shown : (((reader.roots world).1.map (Root.view world.disk.sourceIn?)).findSome?
        fun view => view.text? name) = Option.none := by
      rw [List.findSome?_eq_none_iff]
      intro shown member
      obtain ⟨root, inside, rfl⟩ := List.mem_map.mp member
      exact Root.text?_of_not_hasFile (none root inside)
    rw [View.factOf, View.declaration?, shown]
    rfl
  · intro before root after split first has
    constructor
    · rw [← Root.any_has_view, split]
      exact fileTells_factOf (Root.findSome?_text? first has)
    · intro later same
      show View.factOf ((before ++ root :: later).map _) name = _
      apply factOf_congr_shown
      · rw [split, Root.findSome?_text? first has, Root.findSome?_text? first has]
      · intro other
        have still := same other
        rw [← Root.any_has_view, ← Root.any_has_view] at still
        exact still

/-- Two directories with a source of the same path, of which the first is no text. -/
def shelves : Files.Disk where
  nodes := [(["d"], .directory), (["d", "T.java"], .file ⟨#[0xFF]⟩),
    (["e"], .directory), (["e", "T.java"], .file "class T{}".toUTF8)]

/-- A file that is no text hides the good one of a later directory. -/
theorem read_shelves :
    ((Reader.make ⟨[⟨"d"⟩, ⟨"e"⟩]⟩).read ⟨"T"⟩ { disk := shelves }).1 = none := by
  have directory : shelves.isDirectory ⟨"d"⟩ = true ∧ shelves.isDirectory ⟨"e"⟩ = true := by
    have segments : (Files.Path.mk "d").segments = ["d"] ∧ (Files.Path.mk "e").segments = ["e"] := by
      decide
    constructor
    · exact shelves.isDirectory_of_leadsDown segments.1 (by decide) rfl rfl
    · exact shelves.isDirectory_of_leadsDown segments.2 (by decide) rfl rfl
  have roots : ((Reader.make ⟨[⟨"d"⟩, ⟨"e"⟩]⟩).roots { disk := shelves }).1 =
      [] ++ .directory ⟨"d"⟩ :: [.directory ⟨"e"⟩] := by
    simp [Reader.roots, Reader.make, Root.openAll, Root.openAt, directory]
  have read : shelves.read (Root.unitPath ⟨"d"⟩ ⟨"T"⟩) = .ok ⟨#[0xFF]⟩ := by
    have segments : (Root.unitPath ⟨"d"⟩ ⟨"T"⟩).segments = ["d", "T.java"] := by decide
    exact shelves.read_of_leadsDown segments (by decide) rfl rfl
  have has : (Root.directory ⟨"d"⟩).HasFile shelves ⟨"T"⟩ := by
    show shelves.isFile _ = true
    rw [shelves.isFile_eq, read]
    rfl
  obtain ⟨-, decided⟩ := read_by_first_root (.make ⟨[⟨"d"⟩, ⟨"e"⟩]⟩) { disk := shelves } ⟨"T"⟩
  have told := (decided [] (.directory ⟨"d"⟩) [.directory ⟨"e"⟩] roots (by simp) has).1
  have garbled : ((Root.directory ⟨"d"⟩).bytes? shelves ⟨"T"⟩).bind String.fromUTF8? = none := by
    rw [Root.bytes?, read]
    decide
  rw [garbled] at told
  exact told.eq_none

end Classpath

end TypeLineage
