import TypeLineage.Proofs.Files.Spelling
import TypeLineage.Proofs.TypeName

/-!
# Source paths

The path of a compilation unit is the name of its type with an ending. The last text of it names a
file whatever the type is called. The others name directories if none of them is empty: a type name
has no dots, so none of them leads upwards.
-/

namespace TypeLineage

open Files

namespace TypeName

/-- No text between the slashes of the source path is empty. -/
def Clean (name : TypeName) : Prop :=
  "" ∉ (Files.Path.mk name.sourcePath).segments

instance (name : TypeName) : Decidable name.Clean :=
  inferInstanceAs (Decidable ("" ∉ (Files.Path.mk name.sourcePath).segments))

theorem segments_sourcePath (name : TypeName) :
    ∃ first last, Text.splitOn '/' name.internal.toList = first ++ [last] ∧
      (Files.Path.mk name.sourcePath).segments =
        first.map String.ofList ++ [String.ofList (last ++ ".java".toList)] := by
  have some := Text.splitOn_ne_nil '/' name.internal.toList
  refine ⟨_, _, (List.dropLast_append_getLast some).symm, ?_⟩
  rw [Path.segments, sourcePath, String.toList_append,
    Text.splitOn_append_of_not_mem (by decide), List.map_append]
  rfl

theorem isName_of_ending (piece : List Char) :
    isName (String.ofList (piece ++ ".java".toList)) = true ∧
      String.ofList (piece ++ ".java".toList) ≠ ".." := by
  have long : 5 ≤ (String.ofList (piece ++ ".java".toList)).length := by
    rw [String.length_ofList, List.length_append]
    exact Nat.le_add_left 5 piece.length
  constructor
  · by_contra blank
    rw [Bool.not_eq_true, isName_eq_false] at blank
    rcases blank with empty | dot
    · rw [empty] at long
      exact absurd long (by decide)
    · rw [dot] at long
      exact absurd long (by decide)
  · intro up
    rw [up] at long
    exact absurd long (by decide)

theorem endsBlank_sourcePath (name : TypeName) :
    endsBlank (Files.Path.mk name.sourcePath).segments = false := by
  obtain ⟨first, last, -, segments⟩ := name.segments_sourcePath
  rw [segments, endsBlank_append (List.cons_ne_nil _ _), endsBlank, List.getLast?_singleton]
  simpa using (isName_of_ending last).1

theorem Clean.relative {name : TypeName} (clean : name.Clean) :
    (Files.Path.mk name.sourcePath).isAbsolute = false := by
  by_contra absolute
  rw [Bool.not_eq_false, Path.isAbsolute, beq_iff_eq] at absolute
  obtain ⟨rest, chars⟩ := List.head?_eq_some_iff.mp absolute
  refine clean ?_
  rw [Path.segments, chars, Text.splitOn_cons_self]
  exact List.mem_cons_self

/-- No text between the slashes of a name has a dot. -/
theorem ofList_ne_of_mem_splitOn {raw text : String} {piece : List Char}
    (member : piece ∈ Text.splitOn '/' (ofString raw).internal.toList) (dot : '.' ∈ text.toList) :
    String.ofList piece ≠ text := by
  rintro rfl
  rw [String.toList_ofList] at dot
  exact (canonical_ofString raw).undotted (Text.mem_of_mem_splitOn member dot)

/-- A source path has points in its last text only, which is long. -/
theorem not_mem_segments_sourcePath (raw : String) {text : String} (dot : '.' ∈ text.toList)
    (short : text.length < 5) : text ∉ (Files.Path.mk (ofString raw).sourcePath).segments := by
  intro member
  obtain ⟨first, last, cut, segments⟩ := (ofString raw).segments_sourcePath
  rw [segments, List.mem_append, List.mem_singleton] at member
  rcases member with member | rfl
  · obtain ⟨piece, inside, same⟩ := List.mem_map.mp member
    have whole : piece ∈ Text.splitOn '/' (ofString raw).internal.toList := by
      rw [cut]
      exact List.mem_append_left _ inside
    exact ofList_ne_of_mem_splitOn whole dot same
  · rw [String.length_ofList, List.length_append] at short
    exact absurd short (Nat.not_lt.mpr (Nat.le_add_left 5 last.length))

/-- A source path does not lead upwards. -/
theorem up_not_mem_sourcePath (raw : String) :
    ".." ∉ (Files.Path.mk (ofString raw).sourcePath).segments :=
  not_mem_segments_sourcePath raw (by decide) (by decide)

/-- All texts of a clean source path are gone along. -/
theorem Clean.names {raw : String} (clean : (ofString raw).Clean) :
    ∀ segment ∈ (Files.Path.mk (ofString raw).sourcePath).segments,
      isName segment = true ∧ segment ≠ ".." := by
  intro segment member
  have level : segment ≠ ".." := by
    rintro rfl
    exact up_not_mem_sourcePath raw member
  refine ⟨?_, level⟩
  obtain ⟨first, last, cut, segments⟩ := (ofString raw).segments_sourcePath
  have some : segment ≠ "" := fun empty => clean (empty ▸ member)
  rw [segments, List.mem_append, List.mem_singleton] at member
  rcases member with member | rfl
  · obtain ⟨piece, inside, rfl⟩ := List.mem_map.mp member
    have whole : piece ∈ Text.splitOn '/' (ofString raw).internal.toList := by
      rw [cut]
      exact List.mem_append_left _ inside
    by_contra blank
    rw [Bool.not_eq_true, isName_eq_false] at blank
    rcases blank with empty | dot
    · exact some empty
    · exact ofList_ne_of_mem_splitOn whole (by decide) dot
  · exact (isName_of_ending last).1

end TypeName

end TypeLineage
