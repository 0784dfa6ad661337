import TypeLineage.Proofs.Classpath.Batch
import TypeLineage.Proofs.Java.Written
import TypeLineage.Proofs.Text.Lines
import TypeLineage.Proofs.Text.Pieces
import Mathlib.Data.List.Forall2
import Mathlib.Data.String.Basic

/-!
# What the text of a report tells

In a report as a text the line of a result ends with the answer, and behind its heading, which is as
long as the question makes it, the answer goes up to the line feed. So the texts of two reports on
the same queries tell the texts of the answers, and these tell the answers, if no name looks like
nothing, like several names or like the mark of what is not resolved (`text_tells_answers`).
-/

namespace TypeLineage

namespace Text

variable {word next : List Char} {words others : List (List Char)}

/-- A blank stands behind every word but the last. -/
theorem join_cons_cons :
    join [',', ' '] (word :: next :: words) =
      (word ++ [',']) ++ ' ' :: join [',', ' '] (next :: words) := by
  simp [join]

theorem blank_mem_join : ' ' ∈ join [',', ' '] (word :: next :: words) := by
  rw [join_cons_cons]
  exact List.mem_append_right _ List.mem_cons_self

theorem join_ne_of_not_mem {text : List Char} (whole : ' ' ∉ text) :
    join [',', ' '] (word :: next :: words) ≠ text := by
  rintro rfl
  exact whole blank_mem_join

/-- Words without blanks are told from each other in the text that they are put together to. -/
theorem eq_of_join_eq (plain : ∀ word ∈ words, ' ' ∉ word) (plain' : ∀ word ∈ others, ' ' ∉ word)
    (filled : [] ∉ words) (filled' : [] ∉ others)
    (same : join [',', ' '] words = join [',', ' '] others) : words = others := by
  induction words generalizing others with
  | nil =>
    rcases others with _ | ⟨other, _ | ⟨next, others⟩⟩
    · rfl
    · exact absurd (List.mem_singleton.mpr same) filled'
    · exact absurd same.symm (join_ne_of_not_mem List.not_mem_nil)
  | cons word words ih =>
    rw [List.forall_mem_cons] at plain
    rw [List.mem_cons, not_or] at filled
    -- Where only one list goes on, its text has a blank and the other text has none.
    rcases words with _ | ⟨next, words⟩ <;> rcases others with _ | ⟨other, _ | ⟨next', others⟩⟩
    · exact absurd same.symm filled.1
    · exact congrArg (fun word => [word]) same
    · exact absurd same.symm (join_ne_of_not_mem plain.1)
    · exact absurd same (join_ne_of_not_mem List.not_mem_nil)
    · exact absurd same (join_ne_of_not_mem (plain' other List.mem_cons_self))
    · rw [List.forall_mem_cons] at plain'
      rw [List.mem_cons, not_or] at filled'
      rw [join_cons_cons, join_cons_cons] at same
      obtain ⟨first, rest⟩ :=
        append_cons_inj (by simp [plain.1]) (by simp [plain'.1]) same
      rw [List.append_cancel_right first, ih plain.2 plain'.2 filled.2 filled'.2 rest]

end Text

namespace Java

theorem blankless_of_all {text : String} (all : text.toList.all (!Text.isBlank ·) = true) :
    Blankless text := by
  intro c member
  simpa using List.all_eq_true.mp all c member

theorem Blankless.not_mem {text : String} (blankless : Blankless text) {c : Char}
    (blank : Text.isBlank c = true) : c ∉ text.toList := by
  intro member
  rw [blankless c member] at blank
  cases blank

end Java

/-- A name that looks like one name: not like none, not like several, and not like the mark of what
is not resolved. -/
structure TypeName.Legible (name : TypeName) : Prop where
  /-- It is not empty. -/
  filled : name.dotted ≠ ""
  /-- It has no blanks. -/
  blankless : Java.Blankless name.dotted
  /-- It is not the mark. -/
  resolved : name.dotted ≠ Engine.unresolved

namespace Engine

theorem blankless_unresolved : Java.Blankless unresolved :=
  Java.blankless_of_all (by decide)

/-- An answer of the kind that a question asks for. -/
inductive Answer.Fits : Question → Answer → Prop
  /-- A superclass is a name or none. -/
  | superclass (type : String) (answer : Option TypeName) : Fits (.superclass type) (.name answer)
  /-- Interfaces are names or none. -/
  | interfaces (type : String) (answer : Option (List TypeName)) :
    Fits (.interfaces type) (.names answer)
  /-- A class is extended or not. -/
  | extendsClass (type target : String) (holds : Bool) :
    Fits (.extendsClass type target) (.flag holds)
  /-- An interface is implemented or not. -/
  | implementsInterface (type target : String) (holds : Bool) :
    Fits (.implementsInterface type target) (.flag holds)

/-- What facts say to a question is of its kind. -/
theorem Tells.fits {facts : Hierarchy.Facts} {question : Question} {answer : Answer}
    (tells : Tells facts question answer) : answer.Fits question := by
  cases tells <;> constructor

namespace Answer

/-- The names in an answer. -/
def types : Answer → List TypeName
  | .name answer => answer.toList
  | .names answer => answer.getD []
  | .flag _ => []

/-- All names in an answer can be read. -/
def Legible (answer : Answer) : Prop :=
  ∀ type ∈ answer.types, type.Legible

/-- The only blanks in an answer are those between names. -/
theorem Legible.not_mem {answer : Answer} (legible : answer.Legible) {c : Char}
    (blank : Text.isBlank c = true) (other : c ≠ ' ') : c ∉ answer.text.toList := by
  cases answer with
  | name answer =>
    cases answer with
    | none => exact blankless_unresolved.not_mem blank
    | some type => exact (legible type (List.mem_singleton_self type)).blankless.not_mem blank
  | names answer =>
    cases answer with
    | none => exact blankless_unresolved.not_mem blank
    | some names =>
      intro member
      rw [text, String.toList_ofList] at member
      rcases Text.mem_join member with between | ⟨_, listed, inside⟩
      · have sign : c = ',' ∨ c = ' ' := by simpa using between
        rcases sign with rfl | rfl
        · cases blank
        · exact other rfl
      · obtain ⟨type, given, rfl⟩ := List.mem_map.mp listed
        exact (legible type given).blankless.not_mem blank inside
  | flag holds =>
    have blankless : Java.Blankless (toString holds) :=
      Java.blankless_of_all (by cases holds <;> decide)
    exact blankless.not_mem blank

/-! ### Names -/

section Names

variable {names others : List TypeName}

/-- Some names as they are written one by one. -/
def words (names : List TypeName) : List (List Char) :=
  names.map fun type => type.dotted.toList

theorem words_eq_iff : words names = words others ↔
    names.map TypeName.dotted = others.map TypeName.dotted := by
  have told : ∀ names, words names = (names.map TypeName.dotted).map String.toList :=
    fun names => by rw [words, List.map_map, Function.comp_def]
  rw [told, told, (List.map_injective_iff.mpr fun _ _ => String.toList_injective).eq_iff]

theorem blank_not_mem_of_mem_words (legible : ∀ type ∈ names, type.Legible) {word : List Char}
    (member : word ∈ words names) : ' ' ∉ word := by
  obtain ⟨type, listed, rfl⟩ := List.mem_map.mp member
  exact (legible type listed).blankless.not_mem rfl

theorem nil_not_mem_words (legible : ∀ type ∈ names, type.Legible) : [] ∉ words names := by
  intro member
  obtain ⟨type, listed, empty⟩ := List.mem_map.mp member
  exact (legible type listed).filled (String.toList_eq_nil_iff.mp empty)

/-- Names put together are told from others. -/
theorem text_names_eq_iff (legible : ∀ type ∈ names, type.Legible)
    (legible' : ∀ type ∈ others, type.Legible) :
    text (.names (some names)) = text (.names (some others)) ↔
      names.map TypeName.dotted = others.map TypeName.dotted := by
  rw [← words_eq_iff, text, text, String.ofList_inj]
  constructor
  · exact Text.eq_of_join_eq (fun _ => blank_not_mem_of_mem_words legible)
      (fun _ => blank_not_mem_of_mem_words legible') (nil_not_mem_words legible)
      (nil_not_mem_words legible')
  · exact congrArg (Text.join ", ".toList)

/-- Names put together do not look like the mark of what is not resolved. -/
theorem text_names_ne_unresolved (legible : ∀ type ∈ names, type.Legible) :
    text (.names (some names)) ≠ unresolved := by
  intro same
  rw [text, ← String.toList_inj, String.toList_ofList] at same
  rcases names with _ | ⟨type, _ | ⟨next, names⟩⟩
  · exact absurd same (by decide)
  · exact (legible type List.mem_cons_self).resolved (String.toList_inj.mp same)
  · exact Text.join_ne_of_not_mem (blankless_unresolved.not_mem rfl) same

end Names

theorem text_flag_eq_iff (holds other : Bool) :
    text (.flag holds) = text (.flag other) ↔ (Answer.flag holds).json = (Answer.flag other).json := by
  rw [json, json, Json.bool.injEq, text, text]
  revert holds other
  decide

/-- Two answers to one question have the same text exactly if they have the same value. -/
theorem text_eq_iff {question : Question} {answer other : Answer} (fits : answer.Fits question)
    (fits' : other.Fits question) (legible : answer.Legible) (legible' : other.Legible) :
    answer.text = other.text ↔ answer.json = other.json := by
  cases fits with
  | superclass type answer =>
    cases fits' with
    | superclass _ other =>
      rcases answer with _ | name <;> rcases other with _ | name'
      · exact iff_of_true rfl rfl
      · have resolved := (legible' name' (List.mem_singleton_self name')).resolved
        exact iff_of_false resolved.symm Json.noConfusion
      · have resolved := (legible name (List.mem_singleton_self name)).resolved
        exact iff_of_false resolved Json.noConfusion
      · exact (Json.string.injEq _ _).symm.to_iff
  | interfaces type answer =>
    cases fits' with
    | interfaces _ other =>
      rcases answer with _ | names <;> rcases other with _ | others
      · exact iff_of_true rfl rfl
      · exact iff_of_false (text_names_ne_unresolved legible').symm Json.noConfusion
      · exact iff_of_false (text_names_ne_unresolved legible) Json.noConfusion
      · have dotted : text (.names (some names)) = text (.names (some others)) ↔
            names.map TypeName.dotted = others.map TypeName.dotted :=
          text_names_eq_iff legible legible'
        rw [dotted, json, json, Json.strings, Json.strings, Json.array.injEq,
          (List.map_injective_iff.mpr fun _ _ => Json.string.inj).eq_iff]
  | extendsClass type target holds =>
    cases fits' with
    | extendsClass _ _ holds' => exact text_flag_eq_iff holds holds'
  | implementsInterface type target holds =>
    cases fits' with
    | implementsInterface _ _ holds' => exact text_flag_eq_iff holds holds'

end Answer

end Engine

namespace QueryResult

variable {query : Query} {result other : QueryResult}

/-- What stands in the line of a result before the answer. -/
def heading (question : Engine.Question) : List Char :=
  (question.operation.name ++ " " ++ question.type ++
    (question.target?.map (" " ++ ·)).getD "" ++ ":").toList ++ [' ']

/-- The line of a result without its end. -/
def row (result : QueryResult) : List Char :=
  heading result.question ++ result.answer.text.toList

theorem toList_line (result : QueryResult) : result.line.toList = result.row ++ ['\n'] := by
  obtain ⟨question, answer⟩ := result
  cases question <;> simp [line, row, heading, Engine.Question.target?]

theorem toList_join_line (result : QueryResult) (results : List QueryResult) :
    (String.join (result.line :: results.map line)).toList =
      result.row ++ '\n' :: (String.join (results.map line)).toList := by
  rw [String.join_cons, String.toList_append, toList_line, List.append_assoc,
    List.singleton_append]

/-- Neither the names of the question nor those of the answer leave their place in the line. -/
structure Legible (result : QueryResult) : Prop where
  /-- The type is written in one line. -/
  type : '\n' ∉ result.question.type.toList
  /-- The target is written in one line. -/
  target : ∀ target ∈ result.question.target?, '\n' ∉ target.toList
  /-- The names in the answer can be read. -/
  answer : result.answer.Legible

theorem newline_not_mem_heading (legible : result.Legible) : '\n' ∉ heading result.question := by
  obtain ⟨type, target, _⟩ := legible
  generalize result.question = question at type target
  cases question <;>
    simp_all [heading, Engine.Question.target?, Engine.Question.type, Engine.Question.operation,
      Operation.name]

theorem Legible.newline_not_mem (legible : result.Legible) : '\n' ∉ result.row := by
  rw [row, List.mem_append, not_or]
  exact ⟨newline_not_mem_heading legible, legible.answer.not_mem rfl (by decide)⟩

/-- A line ends with its answer, or with the blank before it. -/
theorem Legible.withoutReturn_row (legible : result.Legible) :
    Text.withoutReturn result.row = result.row := by
  refine if_neg fun last => ?_
  rw [row, heading, List.append_assoc, List.singleton_append, List.getLast?_append_cons] at last
  rcases List.mem_cons.mp (List.mem_of_getLast? last) with blank | inside
  · cases blank
  · exact legible.answer.not_mem rfl (by decide) inside

/-- The lines of a text with a line for every result are those of the results. -/
theorem lines_join_line {results : List QueryResult} (legible : ∀ result ∈ results, result.Legible) :
    Text.lines (String.join (results.map line)).toList = results.map row := by
  induction results with
  | nil => rfl
  | cons result results ih =>
    rw [List.forall_mem_cons] at legible
    rw [List.map_cons, toList_join_line, Text.lines_append_newline legible.1.newline_not_mem,
      legible.1.withoutReturn_row, ih legible.2, List.map_cons]

/-- The result is one to a query: it repeats the question, and its answer is of the kind asked for. -/
def Answers (query : Query) (result : QueryResult) : Prop :=
  result.question = query.question ∧ result.answer.Fits query.question

/-- The lines of two results to one query are the same exactly if their values are. -/
theorem row_eq_iff (answers : Answers query result) (answers' : Answers query other)
    (legible : result.Legible) (legible' : other.Legible) :
    result.row = other.row ↔ result.json = other.json := by
  obtain ⟨question, fits⟩ := answers
  obtain ⟨question', fits'⟩ := answers'
  have told := Engine.Answer.text_eq_iff fits fits' legible.answer legible'.answer
  rw [row, row, json, json, question, question', List.append_cancel_left_eq, String.toList_inj, told]
  simp

/-- A text with a line for every result tells the values of the results, line by line. -/
theorem join_line_eq_iff {queries : List Query} {results others : List QueryResult}
    (answers : List.Forall₂ Answers queries results) (answers' : List.Forall₂ Answers queries others)
    (legible : ∀ result ∈ results, result.Legible) (legible' : ∀ other ∈ others, other.Legible) :
    String.join (results.map line) = String.join (others.map line) ↔
      results.map json = others.map json := by
  induction answers generalizing others with
  | nil =>
    cases answers'
    exact iff_of_true rfl rfl
  | @cons query result queries results first answers ih =>
    obtain _ | @⟨_, other, _, others, first', answers'⟩ := answers'
    rw [List.forall_mem_cons] at legible legible'
    have told := row_eq_iff first first' legible.1 legible'.1
    have rest := ih answers' legible.2 legible'.2
    rw [List.map_cons, List.map_cons, List.map_cons, List.map_cons, List.cons.injEq, ← told, ← rest,
      ← String.toList_inj, ← String.toList_inj, toList_join_line, toList_join_line]
    -- The first line feed ends the first line in both texts, as no row has one.
    constructor
    · exact Text.append_cons_inj legible.1.newline_not_mem legible'.1.newline_not_mem
    · rintro ⟨same, behind⟩
      rw [same, behind]

end QueryResult

namespace Report

/-- The names in a report do not leave their places in the lines. -/
def Legible (report : Report) : Prop :=
  ∀ result ∈ report.results, result.Legible

/-- The results in a report are those to some queries, one by one. -/
def Answers (report : Report) (queries : List Query) : Prop :=
  List.Forall₂ QueryResult.Answers queries report.results

/-- The report on some queries has a result to each. -/
theorem answers_of_ofQueries {disk : Files.Disk} {classpath : Classpath} {queries : List Query}
    {report : Report} (reported : ofQueries disk classpath queries = some report) :
    report.Answers queries := by
  obtain ⟨_, made, fulfilled⟩ := exists_ofQueries disk classpath queries
  rw [Option.some.inj (reported.symm.trans made)]
  exact fulfilled.imp fun _ _ fulfils => ⟨fulfils.1, fulfils.2.fits⟩

/-- **The text of a report tells its answers.** It has one line for every result, in order, if no
name leaves its place in the lines. Two such reports on the same queries have the same text exactly
if their results have the same values: none, no names, some names and truth values are all told
apart. -/
theorem text_tells_answers {p : Report} (legible : p.Legible) :
    ((Text.lines p.text.toList).map fun line => String.ofList line ++ "\n") =
      p.results.map QueryResult.line ∧
    ∀ {q : Report} {queries : List Query}, q.Legible → p.Answers queries → q.Answers queries →
      (p.text = q.text ↔ p.results.map QueryResult.json = q.results.map QueryResult.json) := by
  constructor
  · rw [text, QueryResult.lines_join_line legible, List.map_map]
    refine List.map_congr_left fun result _ => ?_
    rw [← String.toList_inj, QueryResult.toList_line, Function.comp_apply, String.toList_append,
      String.toList_ofList]
    rfl
  · intro q queries legible' answers answers'
    exact QueryResult.join_line_eq_iff answers answers' legible legible'

/-- A report on the interfaces of a type and on its superclass. -/
def onType (interfaces : Option (List TypeName)) (superclass : Option TypeName) : Report where
  project := ""
  roots := []
  results := [⟨.interfaces "a.T", .names interfaces⟩, ⟨.superclass "a.T", .name superclass⟩]
  stats := none

/-- A type that declares no interfaces and one that is not found have different lines. -/
theorem text_tells_missing :
    ((Text.lines (onType (some []) (some ⟨"a/S"⟩)).text.toList).map fun line =>
      String.ofList line ++ "\n") = ["interfaces a.T: \n", "supertype a.T: a.S\n"] ∧
    (onType (some []) (some ⟨"a/S"⟩)).text ≠ (onType none (some ⟨"a/S"⟩)).text := by
  have single : '\n' ∉ "a.T".toList := by decide
  have missing : QueryResult.Legible ⟨.interfaces "a.T", .names none⟩ :=
    ⟨single, by simp [Engine.Question.target?], List.forall_mem_nil _⟩
  have without : QueryResult.Legible ⟨.interfaces "a.T", .names (some [])⟩ :=
    ⟨single, by simp [Engine.Question.target?], List.forall_mem_nil _⟩
  have name : TypeName.Legible ⟨"a/S"⟩ := ⟨by decide, Java.blankless_of_all (by decide), by decide⟩
  have superclass : QueryResult.Legible ⟨.superclass "a.T", .name (some ⟨"a/S"⟩)⟩ :=
    ⟨single, by simp [Engine.Question.target?], List.forall_mem_singleton.mpr name⟩
  have legible : (onType (some []) (some ⟨"a/S"⟩)).Legible :=
    List.forall_mem_cons.mpr ⟨without, List.forall_mem_singleton.mpr superclass⟩
  have legible' : (onType none (some ⟨"a/S"⟩)).Legible :=
    List.forall_mem_cons.mpr ⟨missing, List.forall_mem_singleton.mpr superclass⟩
  have answers : ∀ interfaces, (onType interfaces (some ⟨"a/S"⟩)).Answers
      [⟨.interfaces "a.T", false⟩, ⟨.superclass "a.T", false⟩] := fun interfaces =>
    .cons ⟨rfl, .interfaces "a.T" interfaces⟩ (.cons ⟨rfl, .superclass "a.T" _⟩ .nil)
  obtain ⟨lines, told⟩ := text_tells_answers legible
  constructor
  · exact lines.trans (by decide)
  · rw [ne_eq, told legible' (answers _) (answers _)]
    simp [onType, QueryResult.json, Engine.Answer.json, Json.strings]

end Report

end TypeLineage
