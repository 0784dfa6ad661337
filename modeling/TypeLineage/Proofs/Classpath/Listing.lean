import TypeLineage.Classpath
import TypeLineage.Proofs.Files.Spelling
import Mathlib.Data.String.Basic

/-!
# What the listing of a class path tells

The listing puts every root on a line of its own, as it is written. So it tells the lines of the roots
and no more: roots that are written in several lines are not told from several roots, and spellings
that make no difference to the project are told apart. It identifies projects exactly where neither
occurs (`listing_identifies_iff`).
-/

namespace TypeLineage

namespace Files.Path

/-- A path is its text. -/
theorem text_injective : Function.Injective fun path : Path => path.text.toList := by
  rintro ⟨text⟩ ⟨other⟩ same
  exact congrArg Path.mk (String.toList_inj.mp same)

/-- The lines in which a path is written. -/
def rows (path : Path) : List (List Char) :=
  Text.splitOn '\n' path.text.toList

theorem rows_injective : Function.Injective rows :=
  (Text.splitOn_injective '\n').comp text_injective

/-- The line feeds of a path are in its names. -/
theorem count_newline_eq (path : Path) :
    path.text.toList.count '\n' = (path.names.flatMap String.toList).count '\n' := by
  have blank : ∀ segment, isName segment = false → segment.toList.count '\n' = 0 := by
    intro segment none
    rcases isName_eq_false.mp none with rfl | rfl <;> rfl
  have named : ∀ segments : List String, (segments.flatMap String.toList).count '\n' =
      ((segments.filter isName).flatMap String.toList).count '\n' := by
    intro segments
    induction segments with
    | nil => rfl
    | cons segment rest ih =>
      cases name : isName segment with
      | false =>
        rw [List.filter_cons_of_neg (by simp [name]), List.flatMap_cons, List.count_append,
          blank _ name, Nat.zero_add, ih]
      | true =>
        rw [List.filter_cons_of_pos name, List.flatMap_cons, List.flatMap_cons, List.count_append,
          List.count_append, ih]
  have pieces : (Text.splitOn '/' path.text.toList).flatten.count '\n' =
      path.text.toList.count '\n' := by
    rw [Text.flatten_splitOn, List.count_filter (by decide)]
  rw [names, ← named, ← pieces, segments, List.flatMap_map]
  simp only [String.toList_ofList, List.flatMap_id']

/-- Paths with the same components are written in as many lines. -/
theorem length_rows_of_components {path other : Path} (same : path.components = other.components) :
    path.rows.length = other.rows.length := by
  rw [rows, rows, Text.length_splitOn, Text.length_splitOn, count_newline_eq, count_newline_eq,
    names_eq, names_eq, same]

end Files.Path

namespace Classpath

open Files

variable {p q : Classpath}

/-- The lines of all roots. -/
def rows (classpath : Classpath) : List (List Char) :=
  classpath.roots.flatMap Path.rows

/-- The lines of the listing are those of the roots. -/
theorem splitOn_listing (classpath : Classpath) :
    Text.splitOn '\n' classpath.listing.toList = classpath.rows ++ [[]] := by
  obtain ⟨roots⟩ := classpath
  unfold listing rows
  induction roots with
  | nil => rfl
  | cons root roots ih =>
    rw [List.map_cons, String.join_cons, List.flatMap_cons, List.append_assoc, ← ih]
    simp [Text.splitOn_append, Path.rows]

/-- The listing tells the lines of the roots and no more. -/
theorem toUTF8_listing_eq_iff : p.listing.toUTF8 = q.listing.toUTF8 ↔ p.rows = q.rows := by
  rw [String.toUTF8, String.toUTF8, String.toByteArray_inj, ← String.toList_inj,
    ← (Text.splitOn_injective '\n').eq_iff, splitOn_listing, splitOn_listing,
    List.append_cancel_right_eq]

/-- Among the spellings of one project the lines tell the roots. -/
theorem eq_of_key_of_rows (project : p.key = q.key) (lines : p.rows = q.rows) : p = q := by
  obtain ⟨roots⟩ := p
  obtain ⟨others⟩ := q
  congr 1
  simp only [key, rows] at project lines
  induction roots generalizing others with
  | nil => simpa using project.symm
  | cons root roots ih =>
    cases others with
    | nil => simp at project
    | cons other others =>
      rw [List.map_cons, List.map_cons, List.cons.injEq] at project
      rw [List.flatMap_cons, List.flatMap_cons] at lines
      -- Roots with the same components are as many lines, so the next root starts at the same one.
      obtain ⟨first, rest⟩ := List.append_inj lines (Path.length_rows_of_components project.1)
      rw [Path.rows_injective first, ih others project.2 rest]

/-- Roots without line feeds are their lines. -/
theorem rows_of_single (single : ∀ root ∈ p.roots, '\n' ∉ root.text.toList) :
    p.rows = p.roots.map fun root => root.text.toList := by
  have line : ∀ root ∈ p.roots, root.rows = [root.text.toList] :=
    fun root member => Text.splitOn_of_not_mem (single root member)
  rw [rows, List.flatMap_congr line, List.map_eq_flatMap]

/-- **Two listings are the same bytes exactly if the roots are written in the same lines.** So they
identify the project of two class paths exactly if one project is not written in two ways and two
projects are not written in the same lines. Without line feeds in the roots the listing tells how
the roots are written, and with it the project. -/
theorem listing_identifies_iff (p q : Classpath) :
    (p.listing.toUTF8 = q.listing.toUTF8 ↔ p.rows = q.rows) ∧
    ((p.listing.toUTF8 = q.listing.toUTF8 ↔ p.key = q.key) ↔
      (p.key = q.key → p = q) ∧ (p.rows = q.rows → p.key = q.key)) ∧
    ((∀ root ∈ p.roots ++ q.roots, '\n' ∉ root.text.toList) →
      (p.listing.toUTF8 = q.listing.toUTF8 ↔ p = q)) := by
  refine ⟨toUTF8_listing_eq_iff, ?_, ?_⟩
  · rw [toUTF8_listing_eq_iff]
    constructor
    · intro identifies
      exact ⟨fun project => eq_of_key_of_rows project (identifies.mpr project), identifies.mp⟩
    · rintro ⟨written, told⟩
      exact ⟨told, fun project => congrArg rows (written project)⟩
  · intro single
    rw [toUTF8_listing_eq_iff, rows_of_single fun root member => single root (by simp [member]),
      rows_of_single fun root member => single root (by simp [member]),
      (List.map_injective_iff.mpr Path.text_injective).eq_iff]
    cases p
    cases q
    simp

/-- A class path of two roots, the second written as told. -/
def pair (second : String) : Classpath :=
  ⟨[⟨"a"⟩, ⟨second⟩]⟩

/-- With a slash at the end of a root the project is the same, and the listing is another one. -/
theorem listing_of_single_lines :
    (∀ root ∈ (pair "b").roots ++ (pair "b/").roots, '\n' ∉ root.text.toList) ∧
    (pair "b").key = (pair "b/").key ∧ (pair "b").listing.toUTF8 ≠ (pair "b/").listing.toUTF8 := by
  have single : ∀ root ∈ (pair "b").roots ++ (pair "b/").roots, '\n' ∉ root.text.toList := by
    decide
  have told := (listing_identifies_iff (pair "b") (pair "b/")).2.2 single
  refine ⟨single, by decide, fun same => ?_⟩
  exact absurd (told.mp same) (by decide)

/-- **A listing does not identify a project.** One project that is written in two ways has two
listings, and two projects that are written in the same lines have one, and one fingerprint with it.
-/
theorem listing_identifies_no_project :
    (key ⟨[⟨"src/"⟩]⟩ = key ⟨[⟨"src"⟩]⟩ ∧
      (listing ⟨[⟨"src/"⟩]⟩).toUTF8 ≠ (listing ⟨[⟨"src"⟩]⟩).toUTF8) ∧
    (key ⟨[⟨"a\nb"⟩]⟩ ≠ key ⟨[⟨"a"⟩, ⟨"b"⟩]⟩ ∧
      (listing ⟨[⟨"a\nb"⟩]⟩).toUTF8 = (listing ⟨[⟨"a"⟩, ⟨"b"⟩]⟩).toUTF8 ∧
      fingerprint ⟨[⟨"a\nb"⟩]⟩ = fingerprint ⟨[⟨"a"⟩, ⟨"b"⟩]⟩) ∧
    ¬ ∀ p q : Classpath, p.listing.toUTF8 = q.listing.toUTF8 ↔ p.key = q.key := by
  have spelled : key ⟨[⟨"src/"⟩]⟩ = key ⟨[⟨"src"⟩]⟩ := by decide
  have apart : (listing ⟨[⟨"src/"⟩]⟩).toUTF8 ≠ (listing ⟨[⟨"src"⟩]⟩).toUTF8 := by
    rw [ne_eq, toUTF8_listing_eq_iff]
    decide
  have joined : (listing ⟨[⟨"a\nb"⟩]⟩).toUTF8 = (listing ⟨[⟨"a"⟩, ⟨"b"⟩]⟩).toUTF8 := by
    rw [toUTF8_listing_eq_iff]
    decide
  refine ⟨⟨spelled, apart⟩, ⟨by decide, joined, ?_⟩, fun claimed => ?_⟩
  · rw [fingerprint, fingerprint, joined]
  · exact apart ((claimed _ _).mpr spelled)

end Classpath

end TypeLineage
