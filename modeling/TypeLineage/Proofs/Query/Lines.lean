import TypeLineage.Query.Decode
import Mathlib.Data.List.Forall2

/-!
# The queries of a batch

A batch is read line by line, and there are queries if and only if every line that is not blank is
one. Then they are the queries of these lines in their order; else the first line that is neither
blank nor a query is named by its number.
-/

namespace TypeLineage.Query

/-- A line is written as a query. -/
def Reads (line : List Char) (query : Query) : Prop :=
  ofLine (String.ofList line) = .ok query

/-- The lines that are not blank. -/
def written (lines : List (List Char)) : List (List Char) :=
  lines.filter fun line => !Text.allBlank line

theorem not_reads_of_error {line : List Char} {fault : Json.Fault} {query : Query}
    (refused : ofLine (String.ofList line) = .error fault) : ¬ Reads line query := by
  intro read
  rw [Reads, refused] at read
  cases read

section Lines

variable {number : Nat} {line : List Char} {rest : List (List Char)}

theorem written_cons_of_blank (blank : Text.allBlank line = true) :
    written (line :: rest) = written rest := by
  simp [written, blank]

theorem written_cons_of_not_blank (some : Text.allBlank line = false) :
    written (line :: rest) = line :: written rest := by
  simp [written, some]

theorem ofLines_of_blank (blank : Text.allBlank line = true) :
    ofLines number (line :: rest) = ofLines (number + 1) rest := by
  rw [ofLines, if_pos blank]

theorem ofLines_of_error {fault : Json.Fault} (some : Text.allBlank line = false)
    (refused : ofLine (String.ofList line) = .error fault) :
    ofLines number (line :: rest) = .error { number, line := String.ofList line, fault } := by
  rw [ofLines, if_neg (by simp [some]), refused]
  rfl

theorem ofLines_of_ok {query : Query} (some : Text.allBlank line = false) (reads : Reads line query) :
    ofLines number (line :: rest) = (ofLines (number + 1) rest).map (query :: ·) := by
  rw [ofLines, if_neg (by simp [some]), reads]
  cases ofLines (number + 1) rest <;> rfl

end Lines

theorem exists_reads_of_mem {lines : List (List Char)} {queries : List Query} {line : List Char}
    (reads : List.Forall₂ Reads lines queries) (member : line ∈ lines) :
    ∃ query, Reads line query := by
  obtain ⟨i, rfl⟩ := List.mem_iff_get.mp member
  exact ⟨_, reads.get i.isLt (reads.length_eq ▸ i.isLt)⟩

/-- Lines are queries if each that is not blank is one. -/
theorem ofLines_eq_ok_iff {number : Nat} {lines : List (List Char)} {queries : List Query} :
    ofLines number lines = .ok queries ↔ List.Forall₂ Reads (written lines) queries := by
  induction lines generalizing number queries with
  | nil =>
    constructor
    · intro given
      cases given
      exact .nil
    · intro reads
      cases reads
      rfl
  | cons line rest ih =>
    cases blank : Text.allBlank line with
    | true => rw [ofLines_of_blank blank, written_cons_of_blank blank, ih]
    | false =>
      rw [written_cons_of_not_blank blank]
      cases read : ofLine (String.ofList line) with
      | error fault =>
        rw [ofLines_of_error blank read]
        constructor
        · intro given
          cases given
        · intro reads
          cases reads with
          | cons first others => exact absurd first (not_reads_of_error read)
      | ok query =>
        rw [ofLines_of_ok blank read]
        constructor
        · intro given
          cases behind : ofLines (number + 1) rest with
          | error bad => simp [behind, Except.map] at given
          | ok others =>
            rw [behind] at given
            cases given
            exact .cons read (ih.mp behind)
        · intro reads
          cases reads with
          | cons first others =>
            rw [Reads, read] at first
            cases first
            rw [ih.mpr others]
            rfl

/-- A line is the first that is neither blank nor a query, and the lines are counted from a number,
blank ones too. -/
def IsFirstBad (number : Nat) (lines : List (List Char)) (bad : BadLine) : Prop :=
  ∃ before line after, lines = before ++ line :: after ∧
    (∀ other ∈ written before, ∃ query, Reads other query) ∧ Text.allBlank line = false ∧
    ofLine (String.ofList line) = .error bad.fault ∧ bad.line = String.ofList line ∧
    bad.number = number + before.length

/-- Lines that are blank or queries only delay what the lines behind them give. -/
theorem exists_ofLines_append {before : List (List Char)}
    (reads : ∀ other ∈ written before, ∃ query, Reads other query) (rest : List (List Char))
    (number : Nat) :
    ∃ queries, ofLines number (before ++ rest) =
      (ofLines (number + before.length) rest).map (queries ++ ·) := by
  induction before generalizing number with
  | nil => exact ⟨[], by cases given : ofLines number rest <;> simp [given, Except.map]⟩
  | cons line before ih =>
    have counted : number + (line :: before).length = number + 1 + before.length := by
      rw [List.length_cons]
      omega
    cases blank : Text.allBlank line with
    | true =>
      rw [written_cons_of_blank blank] at reads
      rw [counted, List.cons_append, ofLines_of_blank blank]
      exact ih reads (number + 1)
    | false =>
      rw [written_cons_of_not_blank blank] at reads
      obtain ⟨query, read⟩ := reads line (.head _)
      obtain ⟨queries, same⟩ := ih (fun other member => reads other (.tail _ member)) (number + 1)
      refine ⟨query :: queries, ?_⟩
      rw [counted, List.cons_append, ofLines_of_ok blank read, same]
      cases ofLines (number + 1 + before.length) rest <;> rfl

/-- A line that is blank or a query only moves the first that is neither. -/
theorem IsFirstBad.cons {number : Nat} {line : List Char} {rest : List (List Char)} {bad : BadLine}
    (passed : Text.allBlank line = false → ∃ query, Reads line query)
    (h : IsFirstBad (number + 1) rest bad) : IsFirstBad number (line :: rest) bad := by
  obtain ⟨before, worst, after, rfl, reads, some, refused, same, counted⟩ := h
  refine ⟨line :: before, worst, after, rfl, ?_, some, refused, same, ?_⟩
  · intro other member
    obtain ⟨inside, filled⟩ := List.mem_filter.mp member
    rcases List.mem_cons.mp inside with rfl | inside
    · exact passed (by simpa using filled)
    · exact reads other (List.mem_filter.mpr ⟨inside, filled⟩)
  · rw [counted, List.length_cons]
    omega

/-- If there are no queries, the reason is the first line that is neither blank nor one. -/
theorem ofLines_eq_error_iff {number : Nat} {lines : List (List Char)} {bad : BadLine} :
    ofLines number lines = .error bad ↔ IsFirstBad number lines bad := by
  constructor
  · intro refused
    induction lines generalizing number with
    | nil => cases refused
    | cons line rest ih =>
      cases blank : Text.allBlank line with
      | true =>
        rw [ofLines_of_blank blank] at refused
        exact .cons (by simp [blank]) (ih refused)
      | false =>
        cases read : ofLine (String.ofList line) with
        | error fault =>
          rw [ofLines_of_error blank read] at refused
          cases refused
          exact ⟨[], line, rest, rfl, by simp [written], blank, read, rfl, rfl⟩
        | ok query =>
          rw [ofLines_of_ok blank read] at refused
          refine .cons (fun _ => ⟨query, read⟩) (ih ?_)
          cases behind : ofLines (number + 1) rest with
          | error other => rwa [behind] at refused
          | ok others => simp [behind, Except.map] at refused
  · rintro ⟨before, line, after, rfl, reads, some, refused, same, counted⟩
    obtain ⟨queries, given⟩ := exists_ofLines_append reads (line :: after) number
    rw [given, ofLines_of_error some refused, ← counted, ← same]
    rfl

theorem IsFirstBad.exists_bad {number : Nat} {lines : List (List Char)} {bad : BadLine}
    (h : IsFirstBad number lines bad) : ∃ line ∈ written lines, ∀ query, ¬ Reads line query := by
  obtain ⟨before, line, after, rfl, -, some, refused, -⟩ := h
  exact ⟨line, List.mem_filter.mpr ⟨by simp, by simp [some]⟩, fun _ => not_reads_of_error refused⟩

/-- A batch has queries if each of its lines that is not blank is one. -/
theorem batch_eq_ok_iff {content : String} {queries : List Query} :
    batch content = .ok queries ↔
      List.Forall₂ Reads (written (Text.lines content.toList)) queries :=
  ofLines_eq_ok_iff

/-- A batch that has no queries is refused for its first line that is neither blank nor one. -/
theorem batch_eq_error_iff {content : String} {bad : BadLine} :
    batch content = .error bad ↔ IsFirstBad 1 (Text.lines content.toList) bad :=
  ofLines_eq_error_iff

/-- A batch has no queries if a line that is not blank is none, and only then. -/
theorem exists_batch_eq_error_iff {content : String} :
    (∃ bad, batch content = .error bad) ↔
      ∃ line ∈ written (Text.lines content.toList), ∀ query, ¬ Reads line query := by
  constructor
  · rintro ⟨bad, refused⟩
    exact (batch_eq_error_iff.mp refused).exists_bad
  · rintro ⟨line, member, none⟩
    cases given : batch content with
    | error bad => exact ⟨bad, rfl⟩
    | ok queries =>
      exfalso
      obtain ⟨query, reads⟩ := exists_reads_of_mem (batch_eq_ok_iff.mp given) member
      exact none query reads

/-- A batch has queries if each of its lines that is not blank is one, and only then. -/
theorem exists_batch_eq_ok_iff {content : String} :
    (∃ queries, batch content = .ok queries) ↔
      ∀ line ∈ written (Text.lines content.toList), ∃ query, Reads line query := by
  constructor
  · rintro ⟨queries, given⟩ line member
    exact exists_reads_of_mem (batch_eq_ok_iff.mp given) member
  · intro reads
    cases given : batch content with
    | error bad =>
      exfalso
      obtain ⟨line, member, none⟩ := exists_batch_eq_error_iff.mp ⟨bad, given⟩
      obtain ⟨query, read⟩ := reads line member
      exact none query read
    | ok queries => exact ⟨queries, rfl⟩

end TypeLineage.Query
