import TypeLineage.Classpath.Reader
import TypeLineage.Json.Writer
import TypeLineage.Query

/-!
# Reports

The answers to a batch of queries on one class path, in their order and with the queries repeated,
and what the engine remembers of the project afterwards. A report is written as a JSON value or as
lines of text.
-/

namespace TypeLineage

namespace Engine

/-- An answer as a JSON value; names have dots. -/
def Answer.json : Answer → Json
  | .name answer => .optionalString (answer.map TypeName.dotted)
  | .names answer =>
    match answer with
    | none => .null
    | some types => .strings (types.map TypeName.dotted)
  | .flag holds => .bool holds

/-- What stands for an answer that there is none. -/
def unresolved : String := "<unresolved>"

/-- An answer as a text. -/
def Answer.text : Answer → String
  | .name answer => (answer.map TypeName.dotted).getD unresolved
  | .names answer =>
    match answer with
    | none => unresolved
    | some types =>
      String.ofList (Text.join ", ".toList (types.map fun type => type.dotted.toList))
  | .flag holds => toString holds

/-- The numbers about the memory of a project as a JSON value. -/
def Stats.json (stats : Stats) : Json :=
  .object
    [("cached_elements", .natural stats.cached), ("cache_hits", .natural stats.hits),
      ("cache_misses", .natural stats.misses), ("reader_active", .bool stats.readerActive)]

end Engine

/-- A fact as a JSON value. -/
def Fact.json (fact : Fact) : Json :=
  .object
    [("qualified_name", .string fact.subject.dotted),
      ("superclass_name", .optionalString (fact.superclass.map TypeName.dotted)),
      ("interface_names", .strings (fact.interfaces.map TypeName.dotted))]

/-- A question and the answer to it. -/
structure QueryResult where
  /-- The question. -/
  question : Engine.Question
  /-- The answer. -/
  answer : Engine.Answer
  deriving DecidableEq, Repr

namespace QueryResult

/-- A result as a JSON value. -/
def json (result : QueryResult) : Json :=
  .object
    [("op", .string result.question.operation.name), ("type_name", .string result.question.type),
      ("target", .optionalString result.question.target?), ("answer", result.answer.json)]

/-- A result as a line of text. -/
def line (result : QueryResult) : String :=
  let target :=
    match result.question.target? with
    | none => ""
    | some target => " " ++ target
  result.question.operation.name ++ " " ++ result.question.type ++ target ++ ": " ++
    result.answer.text ++ "\n"

end QueryResult

/-- A report. -/
structure Report where
  /-- The fingerprint of the class path. -/
  project : String
  /-- The roots as written. -/
  roots : List String
  /-- How many milliseconds the answers took. -/
  milliseconds : Nat := 0
  /-- The results in the order of the queries. -/
  results : List QueryResult
  /-- What the engine remembers of the project. -/
  stats : Option Engine.Stats
  deriving DecidableEq, Repr

namespace Report

/-- Answers queries one after the other. -/
def answerAll {π κ ρ ω : Type} [DecidableEq κ] (readers : Engine.Readers π κ ρ ω) (project : π)
    (state : Engine.State π κ ρ ω) : List Query → Option (List QueryResult × Engine.State π κ ρ ω)
  | [] => some ([], state)
  | query :: rest => do
    let (answer, state) ← state.ask readers project query.question query.cleanup
    let (results, state) ← answerAll readers project state rest
    return ({ question := query.question, answer } :: results, state)

/-- The results of some queries, by an engine that starts with nothing, and its state afterwards. -/
def session (disk : Files.Disk) (classpath : Classpath) (queries : List Query) :
    Option (List QueryResult × Classpath.EngineState) :=
  answerAll Classpath.readers classpath (.start { disk }) queries

/-- The report on a session. -/
def ofSession (classpath : Classpath) (session : List QueryResult × Classpath.EngineState) :
    Report where
  project := classpath.fingerprint
  roots := classpath.roots.map Files.Path.text
  results := session.1
  stats := session.2.stats Classpath.readers classpath

/-- The report on some queries. -/
def ofQueries (disk : Files.Disk) (classpath : Classpath) (queries : List Query) : Option Report :=
  (session disk classpath queries).map (ofSession classpath)

/-- What has been told when the engine forgets everything at the end of a session. -/
def noticesOf (state : Classpath.EngineState) : List Notice :=
  (state.clearAll Classpath.readers).world.notices

/-- A report as a JSON value. -/
def json (report : Report) : Json :=
  .object
    [("project", .string report.project), ("roots", .strings report.roots),
      ("duration_ms", .natural report.milliseconds),
      ("results", .array (report.results.map QueryResult.json)),
      ("stats", (report.stats.map Engine.Stats.json).getD .null)]

/-- A report as a text, with one line for every result. -/
def text (report : Report) : String :=
  String.join (report.results.map QueryResult.line)

end Report

end TypeLineage
