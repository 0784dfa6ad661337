import TypeLineage.Proofs.Classpath.Still
import TypeLineage.Query.Report
import Mathlib.Data.List.Forall2

/-!
# Batches of queries

The queries of a batch share an engine, with all that it has cached and opened, and one may have the
reader released in the midst of it. None of that shows in the results: each is what the facts of the
tree say to its query. So every query gets its one result in its place, and the same one in any other
batch, by itself, again, or among others in another order.
-/

namespace TypeLineage.Report

open Engine Classpath Hierarchy

variable {disk : Files.Disk} {classpath : Classpath} {state : EngineState}

/-- The result repeats the question and gives the answer that the facts say. -/
def Fulfils (facts : Facts) (query : Query) (result : QueryResult) : Prop :=
  result.question = query.question ∧ Tells facts query.question result.answer

/-- Facts allow for one result only. -/
theorem rightUnique_fulfils (facts : Facts) : Relator.RightUnique (Fulfils facts) := by
  rintro query ⟨question, answer⟩ ⟨question', answer'⟩ ⟨same, tells⟩ ⟨same', tells'⟩
  simp only at same same' tells tells'
  rw [same, same', tells.unique tells']

theorem map_question_of_fulfils {facts : Facts} {queries : List Query} {results : List QueryResult}
    (fulfilled : List.Forall₂ (Fulfils facts) queries results) :
    results.map QueryResult.question = queries.map Query.question := by
  induction fulfilled with
  | nil => rfl
  | cons fulfils _ ih => rw [List.map_cons, List.map_cons, fulfils.1, ih]

/-- Every query of a batch is answered by the facts of the tree. -/
theorem exists_answerAll (settled : Settled disk (seen disk classpath) classpath.key state)
    (queries : List Query) :
    ∃ results after, answerAll readers classpath state queries = some (results, after) ∧
      List.Forall₂ (Fulfils (View.factOf (seen disk classpath))) queries results := by
  induction queries generalizing state with
  | nil => exact ⟨[], state, rfl, .nil⟩
  | cons query rest ih =>
    obtain ⟨answer, state₁, asked, settled₁, tells⟩ :=
      settled.exists_ask rfl query.question query.cleanup
    obtain ⟨results, after, answered, fulfilled⟩ := ih settled₁
    refine ⟨{ question := query.question, answer } :: results, after, ?_, ?_⟩
    · simp [answerAll, asked, answered]
    · exact .cons ⟨rfl, tells⟩ fulfilled

/-- There is a report on every batch, and its results are what the facts of the tree say. -/
theorem exists_ofQueries (disk : Files.Disk) (classpath : Classpath) (queries : List Query) :
    ∃ report, ofQueries disk classpath queries = some report ∧
      List.Forall₂ (Fulfils (View.factOf (seen disk classpath))) queries report.results := by
  obtain ⟨results, after, answered, fulfilled⟩ :=
    exists_answerAll (settled_start disk (seen disk classpath) classpath.key) queries
  refine ⟨ofSession classpath (results, after), ?_, fulfilled⟩
  rw [ofQueries, session, answered]
  rfl

/-- **Batching changes no answer.** There is a report on every batch, with one result for each
query, in the order of the queries and with the questions repeated. Each result is the one that its
query gets by itself, and whatever queries are picked from the batch, in whatever order and however
often, get the same results again. -/
theorem batching_changes_no_answer (disk : Files.Disk) (classpath : Classpath)
    (queries : List Query) :
    ∃ report, ofQueries disk classpath queries = some report ∧
      ∃ complete : report.results.length = queries.length,
        report.results.map QueryResult.question = queries.map Query.question ∧
        (∀ i : Fin queries.length, ∃ single,
          ofQueries disk classpath [queries.get i] = some single ∧
          single.results = [report.results.get (i.cast complete.symm)]) ∧
        ∀ picks : List (Fin queries.length), ∃ picked,
          ofQueries disk classpath (picks.map queries.get) = some picked ∧
          picked.results = picks.map fun i => report.results.get (i.cast complete.symm) := by
  obtain ⟨report, reported, fulfilled⟩ := exists_ofQueries disk classpath queries
  have complete := fulfilled.length_eq.symm
  have repicked : ∀ picks : List (Fin queries.length), ∃ picked,
      ofQueries disk classpath (picks.map queries.get) = some picked ∧
      picked.results = picks.map fun i => report.results.get (i.cast complete.symm) := by
    intro picks
    obtain ⟨picked, reported', fulfilled'⟩ :=
      exists_ofQueries disk classpath (picks.map queries.get)
    refine ⟨picked, reported', ?_⟩
    refine List.right_unique_forall₂' (rightUnique_fulfils _) fulfilled' ?_
    rw [List.forall₂_map_left_iff, List.forall₂_map_right_iff, List.forall₂_same]
    exact fun i _ => fulfilled.get i.isLt (i.cast complete.symm).isLt
  exact ⟨report, reported, complete, map_question_of_fulfils fulfilled, fun i => repicked [i],
    repicked⟩

end TypeLineage.Report
