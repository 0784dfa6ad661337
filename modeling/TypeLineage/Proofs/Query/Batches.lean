import TypeLineage.CommandLine.Program
import TypeLineage.Proofs.Json.Written
import TypeLineage.Proofs.Query.Spelling
import TypeLineage.Proofs.Text.Lines
import Mathlib.Data.List.ReduceOption

/-!
# The text of a batch

A batch is written with one query a line and blank lines anywhere. A line ends with a line feed, or
with a carriage return and a line feed; the last one need not have an end. Such a text is read as its
queries in their order. Any text is refused if it has a line that is neither blank nor a query, and
the number of the first such line is given, counted from one and with the blank lines.
-/

namespace TypeLineage.Query

open Json

/-- The ways to write a line, with a query or without one. -/
inductive LineOf : Option Query → List Char → Prop where
  /-- A line without a query is blank. -/
  | blank {text : List Char} (blank : Text.allBlank text = true) : LineOf none text
  /-- A line with a query holds nothing else. -/
  | query {query : Query} {text : List Char} (spells : Spells query text) :
      LineOf (some query) text

/-- The ways to write a batch, with a query on some of the lines. -/
inductive LaidOut : List (Option Query) → List Char → Prop where
  /-- There are no lines. -/
  | nil : LaidOut [] []
  /-- The last line has no end. -/
  | last {item : Option Query} {text : List Char} (line : LineOf item text) (whole : '\n' ∉ text) :
      LaidOut [item] text
  /-- A line ends, and others follow. -/
  | cons {item : Option Query} {items : List (Option Query)} {text ending rest : List Char}
      (line : LineOf item text) (whole : '\n' ∉ text)
      (ends : ending = ['\n'] ∨ ending = ['\r', '\n']) (others : LaidOut items rest) :
      LaidOut (item :: items) (text ++ (ending ++ rest))

variable {query : Query} {item : Option Query} {items : List (Option Query)} {text : List Char}

/-! ### Lines -/

/-- An object ends with its closing brace. -/
theorem exists_of_spellsRest {members : List (String × Json)} {rest : List Char}
    (h : SpellsRest members rest) : ∃ inner, rest = inner ++ ['}'] := by
  induction h with
  | @close before _ => exact ⟨before, rfl⟩
  | more _ _ _ _ ih =>
    obtain ⟨inner, rfl⟩ := ih
    exact ⟨_, by rw [← List.append_assoc, ← List.append_assoc, ← List.cons_append,
      ← List.append_assoc]⟩

theorem exists_of_spellsObject {members : List (String × Json)} {object : List Char}
    (h : SpellsObject members object) : ∃ inner, object = '{' :: (inner ++ ['}']) := by
  cases h with
  | mk _ _ others =>
    obtain ⟨inner, rfl⟩ := exists_of_spellsRest others
    exact ⟨_, by rw [← List.append_assoc, ← List.append_assoc]⟩

theorem Spells.not_allBlank (h : Spells query text) : Text.allBlank text = false := by
  obtain ⟨_, _, before, object, after, -, -, spells, -, -, rfl⟩ := h
  obtain ⟨inner, rfl⟩ := exists_of_spellsObject spells
  have visible : Text.isBlank '{' = false := by decide
  simp [Text.allBlank, visible]

/-- A carriage return at the end is a blank behind the object. -/
theorem Spells.withoutReturn (h : Spells query text) : Spells query (Text.withoutReturn text) := by
  rw [Text.withoutReturn]
  split_ifs with returns
  · obtain ⟨members, order, before, object, after, forms, perm, spells, blanks, blanks', rfl⟩ := h
    obtain ⟨inner, rfl⟩ := exists_of_spellsObject spells
    have more : after ≠ [] := by
      rintro rfl
      rw [List.append_nil, ← List.cons_append, ← List.append_assoc, List.getLast?_concat] at returns
      exact absurd returns (by decide)
    refine ⟨members, order, before, _, after.dropLast, forms, perm, spells, blanks, ?_, ?_⟩
    · exact fun c member => blanks' c (List.dropLast_subset _ member)
    · rw [List.dropLast_append_of_ne_nil (by simp), List.dropLast_append_of_ne_nil more]
  · exact h

theorem LineOf.withoutReturn (h : LineOf item text) : LineOf item (Text.withoutReturn text) := by
  cases h with
  | query spells => exact .query spells.withoutReturn
  | blank blank =>
    refine .blank ?_
    rw [Text.withoutReturn]
    split_ifs
    · rw [Text.allBlank, List.all_eq_true] at blank ⊢
      exact fun c member => blank c (List.dropLast_subset _ member)
    · exact blank

/-- A line is read as the query on it, if there is one. -/
theorem LineOf.reads (h : LineOf item text) : List.Forall₂ Reads (written [text]) item.toList := by
  cases h with
  | blank blank =>
    rw [written_cons_of_blank blank]
    exact .nil
  | query spells =>
    rw [written_cons_of_not_blank spells.not_allBlank]
    exact .cons spells.reads .nil

/-! ### Texts -/

/-- A batch is read as the queries on its lines. -/
theorem LaidOut.reads {content : List Char} (h : LaidOut items content) :
    List.Forall₂ Reads (written (Text.lines content)) items.reduceOption := by
  induction h with
  | nil => exact .nil
  | @last item text line whole =>
    rw [List.reduceOption_singleton]
    by_cases empty : text = []
    · subst empty
      exact line.reads
    · rw [Text.lines_of_whole whole empty]
      exact line.reads
  | @cons item items text ending rest line whole ends others ih =>
    have joined : ∀ {text}, LineOf item text →
        List.Forall₂ Reads (written (text :: Text.lines rest)) (item :: items).reduceOption := by
      intro text line
      have parts : (item :: items).reduceOption = item.toList ++ items.reduceOption := by
        cases item <;> rfl
      rw [parts, written, ← List.singleton_append, List.filter_append]
      exact List.rel_append line.reads ih
    rcases ends with rfl | rfl
    -- A carriage return that belongs to the text of the line is lost here, but it was a blank.
    · rw [List.singleton_append, Text.lines_append_newline whole]
      exact joined line.withoutReturn
    · have same : text ++ (['\r', '\n'] ++ rest) = text ++ ['\r'] ++ '\n' :: rest := by simp
      rw [same, Text.lines_append_newline (by simp [whole]), Text.withoutReturn_append_return]
      exact joined line

/-! ### The library's own writing -/

theorem Members.valued {members : List (String × Json)} (h : Members query members)
    {member : String × Json} (inside : member ∈ members) :
    SpellsValue member.2 (compactChars member.2) ∧ '\n' ∉ compactChars member.2 := by
  have kinds : ∀ member ∈ members,
      (∃ text, member.2 = .string text) ∨ ∃ value, member.2 = .bool value := by
    obtain ⟨question, cleanup⟩ := query
    cases h <;> cases question <;> simp [questionMembers]
  rcases kinds member inside with ⟨text, same⟩ | ⟨value, same⟩
  · rw [same]
    exact ⟨spellsValue_string text, newline_not_mem_writtenString text⟩
  · rw [same]
    exact ⟨.bool value, by cases value <;> decide⟩

/-- What the library writes of the members, in any order, is a line with the query. -/
theorem Members.spells {members order : List (String × Json)} (h : Members query members)
    (perm : order.Perm members) :
    Spells query (compactChars (.object order)) ∧ '\n' ∉ compactChars (.object order) := by
  have valued := fun member (inside : member ∈ order) => h.valued (perm.mem_iff.mp inside)
  have filled : order ≠ [] := by
    rintro rfl
    exact absurd (perm.mem_iff.mpr h.tagged.2) List.not_mem_nil
  have whole := newline_not_mem_compactMembers fun member inside => (valued member inside).2
  have object := spellsObject_compactChars filled fun member inside => (valued member inside).1
  refine ⟨⟨members, order, [], _, [], h, perm, object, .nil, .nil, by simp⟩, ?_⟩
  simp [compactChars, whole]

/-! ### The batch -/

/-- **Batches are decoded line by line.** A batch that is laid out has the queries on its lines; any
other has queries if its lines that are not blank are queries, and is refused for the first of them
that is none otherwise. -/
theorem batch_decodes (content : String) :
    (∀ items, LaidOut items content.toList → batch content = .ok items.reduceOption) ∧
      (∀ queries, batch content = .ok queries ↔
        List.Forall₂ Reads (written (Text.lines content.toList)) queries) ∧
      ((∃ queries, batch content = .ok queries) ↔
        ∀ line ∈ Text.lines content.toList, Text.allBlank line = false →
          ∃ query, Reads line query) ∧
      (∀ bad, batch content = .error bad ↔ IsFirstBad 1 (Text.lines content.toList) bad) ∧
      ∀ before line after, Text.lines content.toList = before ++ line :: after →
        (∀ other ∈ before, Text.allBlank other = false → ∃ query, Reads other query) →
        Text.allBlank line = false → (∀ query, ¬ Reads line query) →
        ∃ bad, batch content = .error bad ∧ bad.number = before.length + 1 ∧
          (CommandLine.Failure.badQuery bad).message =
            "Invalid query on line " ++ toString (before.length + 1) ++ ": " ++
              String.ofList line := by
  refine ⟨?_, fun queries => batch_eq_ok_iff, ?_, fun bad => batch_eq_error_iff, ?_⟩
  · exact fun items laid => batch_eq_ok_iff.mpr laid.reads
  · rw [exists_batch_eq_ok_iff]
    simp [written]
  · intro before line after cut reads some none
    cases read : ofLine (String.ofList line) with
    | ok query => exact absurd read (none query)
    | error fault =>
      have first : IsFirstBad 1 (Text.lines content.toList)
          { number := before.length + 1, line := String.ofList line, fault } :=
        ⟨before, line, after, cut, by simpa [written] using reads, some, read, rfl,
          Nat.add_comm before.length 1⟩
      exact ⟨_, batch_eq_error_iff.mpr first, rfl, rfl⟩

theorem not_reads_letter : ¬ Reads ['x'] query := by
  have refused : ofLine (String.ofList ['x']) =
      .error { cause := .valueExpected, column := some 1 } := by
    rw [ofLine, Cursor.start, toUTF8_ofList, encoded_cons_ascii (by decide), encoded_nil]
    rfl
  exact not_reads_of_error refused

/-- Two queries with their members in another order and one of them left out, between blank lines
and with both ends of lines; and a text that is refused for its second line. -/
theorem batch_decodes_two_queries :
    let first : Query := { question := .superclass "a.\x01É", cleanup := true }
    let second : Query := { question := .extendsClass "a.B" "\"" }
    let content := String.ofList ([' '] ++ (['\r', '\n'] ++ (compactChars (.object
      [("cleanup", .bool true), ("type_name", .string "a.\x01É"), ("op", .string "supertype")]) ++
        (['\r', '\n'] ++ (['\t'] ++ (['\n'] ++ compactChars (.object
      [("super_name", .string "\""), ("type_name", .string "a.B"), ("op", .string "extends")])))))))
    LaidOut [none, some first, none, some second] content.toList ∧
      batch content = .ok [first, second] ∧
      ∃ bad, batch (String.ofList ['\n', 'x', '\n', '?']) = .error bad ∧ bad.number = 2 := by
  intro first second content
  have forms : Members first _ := .given
  have forms' : Members second _ := .omitted rfl
  obtain ⟨spells, whole⟩ := forms.spells (List.reverse_perm _)
  obtain ⟨spells', whole'⟩ := forms'.spells (List.reverse_perm _)
  have laid : LaidOut [none, some first, none, some second] content.toList := by
    rw [String.toList_ofList]
    refine .cons (.blank (by decide)) (by decide) (.inr rfl) ?_
    refine .cons (.query spells) whole (.inr rfl) ?_
    refine .cons (.blank (by decide)) (by decide) (.inl rfl) ?_
    exact .last (.query spells') whole'
  obtain ⟨-, -, -, -, refused⟩ := batch_decodes (String.ofList ['\n', 'x', '\n', '?'])
  have cut :
      Text.lines (String.ofList ['\n', 'x', '\n', '?']).toList = [[]] ++ ['x'] :: [['?']] := by
    rw [String.toList_ofList]
    rfl
  obtain ⟨bad, given, number, -⟩ := refused [[]] ['x'] [['?']] cut (by simp [Text.allBlank])
    (by decide) fun _ => not_reads_letter
  exact ⟨laid, (batch_decodes content).1 _ laid, bad, given, number⟩

/-- A query as an object with all its members. -/
def json (query : Query) : Json :=
  .object (questionMembers query.question ++ [("cleanup", .bool query.cleanup)])

/-- The library reads back the queries that it writes. -/
theorem batch_written (queries : List Query) :
    batch (String.ofList (queries.flatMap fun query => compactChars query.json ++ ['\n'])) =
      .ok queries := by
  have laid : LaidOut (queries.map some)
      (queries.flatMap fun query => compactChars query.json ++ ['\n']) := by
    induction queries with
    | nil => exact .nil
    | cons query queries ih =>
      have members : Members query _ := .given
      obtain ⟨spells, whole⟩ := members.spells (.refl _)
      rw [List.flatMap_cons, List.append_assoc]
      exact .cons (.query spells) whole (.inl rfl) ih
  have all : (queries.map some).reduceOption = queries := by simp [List.reduceOption]
  have given := laid.reads
  rw [all] at given
  rw [batch_eq_ok_iff, String.toList_ofList]
  exact given

end TypeLineage.Query
