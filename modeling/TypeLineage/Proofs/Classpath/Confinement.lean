import TypeLineage.Proofs.Classpath.View
import TypeLineage.Proofs.Files.SourcePath

/-!
# Where a directory is left

A type is sought in a directory at the path that its name spells, whatever has been given as a name.
The name has no double dots, so the path leads below the directory, except for a name that starts
with a point or a slash: it spells a path from the top of the file tree, and the directory counts for
nothing (`confined_unitPath_iff`).
-/

namespace TypeLineage

open Files

namespace Files.Path

/-- A path lies below another by its spelling alone: it goes on from there, and never upwards. -/
structure Confined (base path : Path) : Prop where
  /-- It starts with the components of the other. -/
  goesOn : base.components <+: path.components
  /-- It has more of them. -/
  further : base.components ≠ path.components
  /-- None leads upwards. -/
  level : Component.up ∉ path.components

end Files.Path

namespace TypeName

/-- A text given as a name starts at the top if its first character, but for blanks, is a slash or a
point, which is read as one. -/
def StartsAtTop (raw : String) : Prop :=
  ∃ c, (Text.trim raw.toList).head? = some c ∧ (c = '/' ∨ c = '.')

theorem isAbsolute_sourcePath_iff (raw : String) :
    (Files.Path.mk (ofString raw).sourcePath).isAbsolute = true ↔ StartsAtTop raw := by
  have chars : (ofString raw).sourcePath.toList =
      (Text.trim raw.toList).map slash ++ ".java".toList := by
    rw [sourcePath, ofString, String.toList_append, String.toList_ofList]
  rw [Files.Path.isAbsolute, beq_iff_eq, chars, StartsAtTop]
  cases Text.trim raw.toList with
  | nil => simp
  | cons c rest =>
    simp only [List.map_cons, List.cons_append, List.head?_cons, Option.some.injEq, slash]
    split
    case isTrue point => simp [point]
    case isFalse other => simp [other]

/-- A source path goes along names, and along one at least. -/
theorem names_sourcePath_ne_nil (name : TypeName) : (Files.Path.mk name.sourcePath).names ≠ [] := by
  obtain ⟨first, last, -, segments⟩ := name.segments_sourcePath
  rw [Files.Path.names, segments, List.filter_append,
    List.filter_cons_of_pos (isName_of_ending last).1]
  simp

theorem filterMap_component?_sourcePath (raw : String) :
    (Files.Path.mk (ofString raw).sourcePath).segments.filterMap Files.Path.component? =
      (Files.Path.mk (ofString raw).sourcePath).names.map .name :=
  Files.Path.filterMap_component? (up_not_mem_sourcePath raw)

end TypeName

namespace Root

variable {directory : Files.Path} {raw : String}

/-- Where a name does not start at the top, it goes on from the directory. -/
theorem components_unitPath (relative : ¬ TypeName.StartsAtTop raw) :
    (unitPath directory (.ofString raw)).components =
      directory.components ++ (Files.Path.mk (TypeName.ofString raw).sourcePath).names.map .name := by
  have relative : (Files.Path.mk (TypeName.ofString raw).sourcePath).isAbsolute = false := by
    rwa [← TypeName.isAbsolute_sourcePath_iff, Bool.not_eq_true] at relative
  rw [← TypeName.filterMap_component?_sourcePath]
  by_cases nothing : directory.text = ""
  · have elsewhere : (Files.Path.mk (TypeName.ofString raw).sourcePath).segments.head? ≠ some "." :=
      fun here => TypeName.not_mem_segments_sourcePath raw (by decide) (by decide)
        (List.mem_of_head? here)
    rw [unitPath, Files.Path.join_of_empty nothing, directory.text_eq_empty_iff.mp nothing,
      Files.Path.components_eq, Files.Path.lead, relative, if_neg (by simp), if_neg elsewhere]
  · exact Files.Path.components_join nothing relative

/-- What a directory has and shows for a type depends only on what the tree has at one path. -/
theorem text?_congr_read {disk other : Disk} {name : TypeName}
    (same : disk.read (unitPath directory name) = other.read (unitPath directory name)) :
    (Root.directory directory).has disk name = (Root.directory directory).has other name ∧
      (Root.directory directory).text? disk name = (Root.directory directory).text? other name := by
  have file : disk.isFile (unitPath directory name) = other.isFile (unitPath directory name) := by
    rw [disk.isFile_eq, other.isFile_eq, same]
  refine ⟨file, ?_⟩
  simp only [text?, file, Disk.readText, same]

/-- **A directory is asked for a type at one path.** The path lies below the directory if the
directory has no double dot itself and the given name does not start at the top. Where the name
does, the directory counts for nothing: the path is that of the name, and lies below the directory
only if the name spells the directory, too. -/
theorem confined_unitPath_iff (directory : Files.Path) (raw : String) :
    (∀ disk other : Disk, disk.read (unitPath directory (.ofString raw)) =
        other.read (unitPath directory (.ofString raw)) →
        (Root.directory directory).has disk (.ofString raw) =
          (Root.directory directory).has other (.ofString raw) ∧
        (Root.directory directory).text? disk (.ofString raw) =
          (Root.directory directory).text? other (.ofString raw)) ∧
    (directory.Confined (unitPath directory (.ofString raw)) ↔
      Component.up ∉ directory.components ∧ (TypeName.StartsAtTop raw →
        directory.Confined ⟨(TypeName.ofString raw).sourcePath⟩)) ∧
    (TypeName.StartsAtTop raw →
      unitPath directory (.ofString raw) = ⟨(TypeName.ofString raw).sourcePath⟩) := by
  have elsewhere (top : TypeName.StartsAtTop raw) :
      unitPath directory (.ofString raw) = ⟨(TypeName.ofString raw).sourcePath⟩ :=
    Files.Path.join_of_isAbsolute ((TypeName.isAbsolute_sourcePath_iff raw).mpr top)
  refine ⟨fun disk other => text?_congr_read, ⟨?_, ?_⟩, elsewhere⟩
  · intro confined
    refine ⟨fun up => confined.level (confined.goesOn.subset up), fun top => ?_⟩
    rwa [elsewhere top] at confined
  · rintro ⟨level, whole⟩
    by_cases top : TypeName.StartsAtTop raw
    · rw [elsewhere top]
      exact whole top
    · have components := @components_unitPath directory raw top
      refine ⟨?_, ?_, ?_⟩
      · rw [components]
        exact List.prefix_append _ _
      · rw [components]
        simpa using (TypeName.ofString raw).names_sourcePath_ne_nil
      · rw [components]
        simpa using level

theorem confined_dotted :
    (Files.Path.mk "./d").Confined (unitPath ⟨"./d"⟩ (.ofString " a..T.\n")) := by
  refine (confined_unitPath_iff ⟨"./d"⟩ " a..T.\n").2.1.mpr ⟨by decide, ?_⟩
  rintro ⟨c, first, top⟩
  have first : some 'a' = some c := first
  cases first
  exact absurd top (by decide)

/-- A directory at the top of a tree, and a source next to it. -/
def neighbours : Disk where
  nodes := [(["d"], .directory), (["T.java"], .file "class T{}".toUTF8)]

theorem isDirectory_neighbours : neighbours.isDirectory ⟨"d"⟩ = true := by
  have segments : (Files.Path.mk "d").segments = ["d"] := by decide
  exact neighbours.isDirectory_of_leadsDown segments (by decide) rfl rfl

/-- **A reader may leave its directory**: a name that starts with a point is found next to the
directory, and not below it. -/
theorem read_outside_directory :
    ¬ (Files.Path.mk "d").Confined (unitPath ⟨"d"⟩ (.ofString ".T")) ∧
    ((Classpath.Reader.make ⟨[⟨"d"⟩]⟩).read (.ofString ".T") { disk := neighbours }).1 =
      some { subject := ⟨"/T"⟩, superclass := some .object } := by
  constructor
  · intro confined
    have goesOn : (Files.Path.mk "d").components <+: (unitPath ⟨"d"⟩ (.ofString ".T")).components :=
      confined.goesOn
    exact absurd goesOn (by decide)
  · have named : TypeName.ofString ".T" = ⟨"/T"⟩ := by decide
    have segments : (unitPath ⟨"d"⟩ ⟨"/T"⟩).segments = ["", "T.java"] := by decide
    have source : neighbours.sourceIn? ⟨"d"⟩ ⟨"/T"⟩ = some "class T{}".toUTF8 := by
      rw [Disk.sourceIn?, neighbours.read_of_leadsDown segments (by decide) rfl rfl]
      rfl
    have roots : ((Classpath.Reader.make ⟨[⟨"d"⟩]⟩).roots { disk := neighbours }).1 =
        [.directory ⟨"d"⟩] := by
      simp [Classpath.Reader.roots, Classpath.Reader.make, openAll, openAt, isDirectory_neighbours]
    have unit : Java.Unit.ofText? "class T{}" =
        some { declarations := [{ kind := .class, name := "T" }] } := by
      decide +kernel
    rw [Classpath.Reader.read_fst, roots, named, View.factOf, View.declaration?]
    simp only [List.map_cons, List.map_nil, view, List.findSome?_cons, source,
      fromUTF8?_toUTF8, Option.map_some, Option.join_some, Option.bind_some, unit]
    decide

end Root

end TypeLineage
