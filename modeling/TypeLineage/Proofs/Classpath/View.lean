import TypeLineage.Classpath.Reader
import TypeLineage.Proofs.Text.Bytes
import Mathlib.Data.List.Basic

/-!
# What readers see

All that a fact depends on, beside the name asked for, is what the opened roots show: which types
they have, and the text that each gives for a type. A directory shows what its files are now; an
archive shows what it was when it was opened, and needs no tree any more.
-/

namespace TypeLineage

/-- What the sources below a root show. -/
structure View where
  /-- Whether a type counts as being there. -/
  has : TypeName → Bool
  /-- What is found for a type, if the root decides on it: its text, or none if that cannot be
  read. -/
  text? : TypeName → Option (Option String)

namespace View

/-- The declaration of a type, with its compilation unit, in the text that is shown for the type. -/
def declaration? (views : List View) (name : TypeName) : Option (Java.Unit × Java.Declaration) :=
  (views.findSome? fun view => view.text? name).join.bind fun text =>
    (Java.Unit.ofText? text).bind fun unit =>
      (unit.declaration? name.simple).map fun declaration => (unit, declaration)

/-- The fact about a type, given what the roots show. -/
def factOf (views : List View) (name : TypeName) : Option Fact :=
  (declaration? views name).map fun found =>
    Resolution.fact found.1 (fun other => views.any fun view => view.has other) name found.2

theorem declaration?_of_text {views : List View} {name : TypeName} {text : String}
    {unit : Java.Unit} {declaration : Java.Declaration}
    (shown : (views.findSome? fun view => view.text? name) = some (some text))
    (parsed : Java.Unit.ofText? text = some unit)
    (declared : unit.declaration? name.simple = some declaration) :
    declaration? views name = some (unit, declaration) := by
  rw [declaration?, shown, Option.join_some, Option.bind_some, parsed, Option.bind_some, declared]
  rfl

/-- A declaration is taken from a text that a root shows. -/
theorem exists_text_of_declaration? {views : List View} {name : TypeName} {unit : Java.Unit}
    {declaration : Java.Declaration} (found : declaration? views name = some (unit, declaration)) :
    ∃ view ∈ views, ∃ text, view.text? name = some (some text) ∧
      Java.Unit.ofText? text = some unit ∧ declaration ∈ unit.declarations := by
  obtain ⟨text, first, rest⟩ := Option.bind_eq_some_iff.mp found
  obtain ⟨unit', parsed, rest⟩ := Option.bind_eq_some_iff.mp rest
  obtain ⟨declaration', declared, same⟩ := Option.map_eq_some_iff.mp rest
  cases same
  obtain ⟨view, member, shown⟩ :=
    List.exists_of_findSome?_eq_some (Option.join_eq_some_iff.mp first)
  exact ⟨view, member, text, shown, parsed, List.mem_of_find?_eq_some declared⟩

end View

namespace Files.Disk

variable (disk : Disk)

/-- What a tree has below a directory for a type: the bytes of the file that its source path leads
to. A source path that starts with a slash leads there from the top of the tree. -/
def sourceIn? (directory : Path) (name : TypeName) : Option ByteArray :=
  (disk.read (Root.unitPath directory name)).toOption

theorem isFile_eq (path : Path) : disk.isFile path = (disk.read path).toOption.isSome := by
  unfold isFile at? read
  cases disk.resolve path with
  | error fault => rfl
  | ok place =>
    cases here : disk.node? place with
    | none => simp [here, bind, Except.bind, Except.toOption]
    | some node => cases node <;> simp [here, bind, Except.bind, Except.toOption]

theorem toOption_readText (path : Path) :
    (disk.readText path).toOption = (disk.read path).toOption.bind String.fromUTF8? := by
  unfold readText
  cases disk.read path with
  | error fault => rfl
  | ok content =>
    cases decoded : String.fromUTF8? content <;>
      simp [decoded, bind, Except.bind, Except.toOption]

end Files.Disk

/-- The content of an entry is a text if its bytes are one. -/
theorem Archive.Opened.toOption_text (opened : Archive.Opened) :
    opened.text.toOption = opened.content.toOption.bind String.fromUTF8? := by
  rw [text]
  cases opened.content with
  | error damage => rfl
  | ok bytes =>
    cases decoded : String.fromUTF8? bytes <;>
      simp [decoded, bind, Except.bind, Except.toOption, pure, Except.pure, throw, throwThe,
        MonadExceptOf.throw]

namespace Root

variable (disk : Files.Disk)

/-- What a root shows, given what the tree has below directories. -/
def view (sources : Files.Path → TypeName → Option ByteArray) : Root → View
  | .directory path =>
    { has := fun name => (sources path name).isSome
      text? := fun name => (sources path name).map String.fromUTF8? }
  | .archive _ content =>
    { has := fun name => content.hasEntry name.sourcePath
      text? := fun name => (content.entry? name.sourcePath).map fun entry =>
        (content.openEntry entry).toOption.bind fun opened => opened.text.toOption }

theorem has_view (root : Root) (name : TypeName) :
    (root.view disk.sourceIn?).has name = root.has disk name := by
  cases root with
  | directory path => exact (disk.isFile_eq (unitPath path name)).symm
  | archive path content => rfl

/-- A type counts as being there if any root has it. -/
theorem any_has_view (roots : List Root) :
    (fun other => (roots.map (view disk.sourceIn?)).any fun shown => shown.has other) =
      anyHas disk roots := by
  funext other
  simp only [anyHas, List.any_map, Function.comp_def, has_view]

theorem text?_view (root : Root) (name : TypeName) :
    (root.view disk.sourceIn?).text? name =
      (root.text? disk name).map fun found => found.toOption.map SourceText.text := by
  cases root with
  | directory path =>
    have isFile := disk.isFile_eq (unitPath path name)
    have text := disk.toOption_readText (unitPath path name)
    show ((disk.read (unitPath path name)).toOption).map String.fromUTF8? = _
    cases content : (disk.read (unitPath path name)).toOption with
    | none =>
      rw [content] at isFile
      simp [Root.text?, isFile]
    | some bytes =>
      rw [content] at isFile text
      simp only [Root.text?, isFile]
      cases read : disk.readText (unitPath path name) with
      | error fault =>
        rw [read] at text
        simpa [Except.toOption] using text.symm
      | ok found =>
        rw [read] at text
        simpa [Except.toOption] using text.symm
  | archive path content =>
    show (content.entry? name.sourcePath).map _ = _
    cases h : content.entry? name.sourcePath with
    | none => simp [Root.text?, h]
    | some entry =>
      simp only [Root.text?, h, Option.map_some]
      cases content.openEntry entry with
      | error defect => rfl
      | ok opened =>
        simp only [Except.toOption, Option.bind_some]
        cases h : opened.text <;> simp

/-- What an opened root shows of the tree from which it has just been opened. -/
def viewAt (path : Files.Path) : Option View :=
  (openAt disk path).1.map (view disk.sourceIn?)

theorem viewAt_of_isDirectory {path : Files.Path} (directory : disk.isDirectory path = true) :
    viewAt disk path = some (view disk.sourceIn? (.directory path)) := by
  rw [viewAt, openAt, if_pos directory]
  rfl

theorem viewAt_of_read {path : Files.Path} {bytes : ByteArray} {content : Archive}
    (found : disk.read path = .ok bytes) (opened : Archive.ofBytes bytes = .ok content) :
    viewAt disk path = some (view disk.sourceIn? (.archive path content)) := by
  have file : disk.isFile path = true := by
    rw [disk.isFile_eq, found]
    rfl
  have directory : disk.isDirectory path = false := by
    unfold Files.Disk.isFile at file
    unfold Files.Disk.isDirectory
    cases here : disk.at? path with
    | none => rfl
    | some node =>
      cases node with
      | directory => simp [here] at file
      | file content | link target => rfl
  simp [viewAt, openAt, directory, file, found, opened]

theorem map_view_openAll (paths : List Files.Path) :
    (openAll disk paths).1.map (view disk.sourceIn?) = paths.filterMap (viewAt disk) := by
  simp only [openAll, List.map_filterMap, List.filterMap_map]
  rfl

end Root

namespace Classpath

/-- A reader tells what the opened roots show. -/
theorem toOption_factIn? (disk : Files.Disk) (roots : List Root) (name : TypeName) :
    (factIn? disk roots name).toOption.join =
      View.factOf (roots.map (Root.view disk.sourceIn?)) name := by
  have text : ((roots.map (Root.view disk.sourceIn?)).findSome? fun view => view.text? name) =
      (Root.firstText? disk roots name).map fun found => found.toOption.map SourceText.text := by
    rw [Root.firstText?, List.map_findSome?, List.findSome?_map]
    simp only [Function.comp_def, Root.text?_view]
  unfold View.factOf View.declaration? factIn?
  rw [Root.any_has_view, text]
  cases Root.firstText? disk roots name with
  | none => rfl
  | some found =>
    cases found with
    | error fault => rfl
    | ok source =>
      simp only [Option.map_some, Except.toOption, Option.join_some, Option.bind_some]
      cases Java.Unit.ofText? source.text with
      | none => rfl
      | some unit =>
        simp only [Option.bind_some]
        cases unit.declaration? name.simple <;> rfl

namespace Reader

variable (reader : Reader) (name : TypeName) (world : World)

/-- The roots in use are those that are open, or else those that the tree has now. -/
theorem roots_fst :
    (reader.roots world).1 = reader.opened.getD (Root.openAll world.disk reader.paths).1 := by
  unfold roots
  cases reader.opened <;> rfl

theorem disk_roots : (reader.roots world).2.disk = world.disk := by
  unfold roots
  cases reader.opened <;> rfl

/-- The answer is what the roots in use show. -/
theorem read_fst :
    (reader.read name world).1 =
      View.factOf ((reader.roots world).1.map (Root.view world.disk.sourceIn?)) name := by
  rw [← toOption_factIn?, ← reader.disk_roots world, read]
  cases h : factIn? (reader.roots world).2.disk (reader.roots world).1 name <;>
    simp [h, Except.toOption]

/-- All that a reader remembers of a question is which roots are open. -/
theorem read_reader :
    (reader.read name world).2.1 = { reader with opened := some (reader.roots world).1 } := by
  rw [read]
  cases h : factIn? (reader.roots world).2.disk (reader.roots world).1 name <;> simp [h]

theorem disk_read : (reader.read name world).2.2.disk = world.disk := by
  rw [← reader.disk_roots world, read]
  cases h : factIn? (reader.roots world).2.disk (reader.roots world).1 name <;>
    simp [h, World.tell]

theorem release_fst : (reader.release world).1 = { reader with opened := none } := by
  cases reader with
  | mk paths opened => cases opened <;> rfl

theorem disk_release : (reader.release world).2.disk = world.disk := by
  unfold release
  cases reader.opened <;> rfl

end Reader

end Classpath

end TypeLineage
