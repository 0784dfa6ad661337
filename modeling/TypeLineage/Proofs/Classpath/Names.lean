import TypeLineage.Classpath.Resolution
import TypeLineage.Proofs.Files.SourcePath
import TypeLineage.Proofs.Java.Written
import TypeLineage.Proofs.TypeName
import Mathlib.Data.List.TakeWhile

/-!
# Parts of written names

A written name is its part before the first point, and behind the point perhaps a member
(`exists_spelled`, `cutName_spelled`). The name of a member inside the library is the name of the
outer type, a dollar sign, and the member with dollar signs for its points: a supertype that a source
text names has no blanks, so nothing is cut off (`memberOf_ofString`).
-/

namespace TypeLineage

open Java

/-! ### Texts cut at a separator -/

section Cutting

variable {separator : Char} {text : List Char}

theorem bne_of_not_mem (whole : separator ∉ text) : ∀ c ∈ text, (c != separator) = true := by
  intro c member
  rw [bne_iff_ne]
  rintro rfl
  exact whole member

theorem eq_of_dropWhile_bne {c : Char} {rest : List Char}
    (cut : text.dropWhile (· != separator) = c :: rest) : c = separator := by
  have stopped : (c != separator) = false :=
    Text.head_dropWhile_not (p := (· != separator)) (by rw [cut]; rfl)
  simpa using stopped

/-- The part behind the last separator is the whole text, or what follows some separator. -/
theorem behindLast_eq_iff {last : List Char} (whole : separator ∉ last) :
    (text.reverse.takeWhile (· != separator)).reverse = last ↔
      text = last ∨ ∃ before, text = before ++ separator :: last := by
  have plain : ∀ c ∈ last.reverse, (c != separator) = true :=
    bne_of_not_mem (by rwa [List.mem_reverse])
  constructor
  · intro cut
    have parts : text = (text.reverse.dropWhile (· != separator)).reverse ++ last := by
      rw [← cut, ← List.reverse_append, List.takeWhile_append_dropWhile, List.reverse_reverse]
    cases rest : text.reverse.dropWhile (· != separator) with
    | nil =>
      left
      simpa [rest] using parts
    | cons c more =>
      right
      refine ⟨more.reverse, ?_⟩
      rw [parts, rest, List.reverse_cons, eq_of_dropWhile_bne rest, List.append_assoc,
        List.singleton_append]
  · rintro (rfl | ⟨before, rfl⟩)
    · rw [List.takeWhile_eq_self_iff.mpr plain, List.reverse_reverse]
    · rw [List.reverse_append, List.reverse_cons, List.append_assoc, List.singleton_append,
        List.takeWhile_append_of_pos plain]
      simp

end Cutting

/-! ### Names and their members -/

namespace Resolution

/-- A written name of a first part and perhaps a member. -/
def spelled (head : String) : Option String → String
  | none => head
  | some member => head ++ "." ++ member

/-- A member with dollar signs for its points. -/
def dollars (member : String) : String :=
  String.ofList (member.toList.map fun c => if c = '.' then '$' else c)

theorem blankless_of_spelled {head : String} {member? : Option String}
    (plain : Blankless (spelled head member?)) : ∀ member ∈ member?, Blankless member := by
  rintro member rfl c inside
  exact plain c (by simp [spelled, inside])

theorem plain_dollars {member : String} (plain : Blankless member) :
    ∀ c ∈ (dollars member).toList, c ≠ '.' ∧ Text.isBlank c = false := by
  intro c inside
  rw [dollars, String.toList_ofList, List.mem_map] at inside
  obtain ⟨d, inside, rfl⟩ := inside
  split
  case isTrue => decide
  case isFalse other => exact ⟨other, plain d inside⟩

/-- A type, or a member of it, which is set off by a dollar sign. -/
def within (outer : TypeName) : Option String → TypeName
  | none => outer
  | some member => ⟨outer.internal ++ "$" ++ dollars member⟩

theorem memberOf_ofString (raw : String) {member : String} (plain : Blankless member) :
    memberOf (.ofString raw) member = within (.ofString raw) (some member) := by
  have chars : ((TypeName.ofString raw).internal ++ "$" ++ dollars member).toList =
      (TypeName.ofString raw).internal.toList ++ '$' :: (dollars member).toList := by
    simp
  show TypeName.ofString ((TypeName.ofString raw).internal ++ "$" ++ dollars member) = _
  apply TypeName.ofString_eq_self
  · rw [chars, List.mem_append, List.mem_cons]
    rintro (outer | dollar | inside)
    · exact (TypeName.canonical_ofString raw).undotted outer
    · cases dollar
    · exact (plain_dollars plain _ inside).1 rfl
  · intro c first
    rw [chars, List.head?_append] at first
    cases start : (TypeName.ofString raw).internal.toList.head? with
    | none =>
      simp only [start, Option.none_or, List.head?_cons, Option.mem_def, Option.some.injEq] at first
      rw [← first]
      decide
    | some d =>
      simp only [start, Option.some_or, Option.mem_def, Option.some.injEq] at first
      exact first ▸ (TypeName.canonical_ofString raw).front d start
  · intro c last
    have ending : c ∈ '$' :: (dollars member).toList := by
      rw [chars, List.getLast?_append, List.getLast?_cons, Option.some_or] at last
      exact List.mem_of_getLast? (by rw [List.getLast?_cons]; exact last)
    rcases List.mem_cons.mp ending with rfl | inside
    · decide
    · exact (plain_dollars plain c inside).2

/-- Every written name has a first part. -/
theorem exists_spelled (written : String) :
    ∃ head member?, '.' ∉ head.toList ∧ written = spelled head member? := by
  have parts := List.takeWhile_append_dropWhile (p := (· != '.')) (l := written.toList)
  refine ⟨(cutName written).1, (cutName written).2, ?_, ?_⟩
  · intro dot
    rw [cutName, String.toList_ofList] at dot
    simpa using List.mem_takeWhile_imp dot
  · rw [← String.toList_inj]
    cases rest : written.toList.dropWhile (· != '.') with
    | nil =>
      rw [rest, List.append_nil] at parts
      simp [cutName, rest, spelled, parts]
    | cons c member =>
      obtain rfl : c = '.' := eq_of_dropWhile_bne rest
      rw [rest] at parts
      simp [cutName, rest, spelled, parts]

theorem cutName_spelled {head : String} (whole : '.' ∉ head.toList) (member? : Option String) :
    cutName (spelled head member?) = (head, member?) := by
  have plain : ∀ c ∈ head.toList, (c != '.') = true := bne_of_not_mem whole
  cases member? with
  | none =>
    have all : head.toList.takeWhile (· != '.') = head.toList := List.takeWhile_eq_self_iff.mpr plain
    have rest : head.toList.dropWhile (· != '.') = [] := List.dropWhile_eq_nil_iff.mpr plain
    simp only [cutName, spelled, all, rest, String.ofList_toList]
  | some member =>
    have chars : (spelled head (some member)).toList = head.toList ++ '.' :: member.toList := by
      simp [spelled]
    simp only [cutName, chars]
    rw [List.takeWhile_append_of_pos plain, List.dropWhile_append_of_pos plain]
    simp

end Resolution

end TypeLineage
