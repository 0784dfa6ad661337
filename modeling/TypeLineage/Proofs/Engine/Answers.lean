import TypeLineage.Fact.Table
import TypeLineage.Proofs.Engine.Index
import TypeLineage.Proofs.Engine.Telling

/-!
# What the answers mean

Over readers that answer from a table, every question has an answer, and it is what the facts of the
table say. Nothing that the engine was asked before makes a difference, nor what it has released or
forgotten since: all that it holds is so by the same facts, and a look gives the fact of the table
wherever it comes from.
-/

namespace TypeLineage.Engine

open Relation Hierarchy Look

variable {π κ ρ ω : Type} [DecidableEq κ] {readers : Readers π κ ρ ω} {table : FactTable}
  {state : State π κ ρ ω}

/-- The readers of a table answer from it. -/
theorem answerFrom_readers (table : FactTable) : table.readers.AnswerFrom table.find? :=
  fun _ _ _ => rfl

/-- Looks that answer from a table meet finitely many names. -/
theorem exists_names_of_table (answers : readers.AnswerFrom table.find?) (project : π)
    (start : TypeName) :
    ∃ names, start ∈ names ∧
      Confined (look readers .full project) (State.Coherent readers table.find?) names := by
  have mirrors : Mirrors (look readers .full project) (State.Coherent readers table.find?)
      fun name => table.entries.lookup name := mirrors_lookFull answers project
  exact mirrors.exists_names start

/-- All that an engine comes to know over a table is what the table says. -/
theorem grounded_of_table (answers : readers.AnswerFrom table.find?) (project : π) :
    Grounded readers project (State.Coherent readers table.find?) table.find? where
  lookCached := coherent_look answers .cachedOnly project
  lookFull := mirrors_lookFull answers project
  coherent _ coherent := coherent project
  finite := exists_names_of_table answers project

/-- A climb has the outcome that the table says. -/
theorem exists_extendsClass (answers : readers.AnswerFrom table.find?)
    (coherent : state.Coherent readers table.find?) (project : π) (name target : TypeName) :
    ∃ holds after, state.extendsClass readers project name target = some (holds, after) ∧
      (holds = true ↔ Extends table.find? name target) :=
  (grounded_of_table answers project).exists_extendsClass coherent name target

/-- The two passes come to the outcome that the table says. -/
theorem exists_implementsInterface (answers : readers.AnswerFrom table.find?)
    (coherent : state.Coherent readers table.find?) (project : π) (name target : TypeName) :
    ∃ holds after, state.implementsInterface readers project name target = some (holds, after) ∧
      (holds = true ↔ Implements table.find? name target) :=
  (grounded_of_table answers project).exists_implementsInterface coherent name target

/-- **Whether a type implements an interface is answered by the facts alone**: after any run, the
answer is yes exactly if a fact that is reached from the type, upwards first and across interfaces
then, declares the interface. -/
theorem exists_ask_implementsInterface (answers : readers.AnswerFrom table.find?)
    (reachable : Reachable readers state) (project : π) (type interface : String) (cleanup : Bool) :
    ∃ holds after,
      state.ask readers project (.implementsInterface type interface) cleanup =
        some (.flag holds, after) ∧
      (holds = true ↔ Implements table.find? (.ofString type) (.ofString interface)) := by
  have coherent := reachable.coherent answers
  obtain ⟨holds, after, searched, decided⟩ :=
    exists_implementsInterface answers coherent project (.ofString type) (.ofString interface)
  refine ⟨holds, after.finish readers project cleanup, ?_, decided⟩
  exact State.ask_of_answer (by simp [State.answer, searched])

/-- Two classes in a circle, two interfaces in another, and an interface without a fact. -/
def circles : FactTable := .ofList
  [{ subject := ⟨"a/Low"⟩, superclass := some ⟨"a/High"⟩ },
    { subject := ⟨"a/High"⟩, superclass := some ⟨"a/Low"⟩, interfaces := [⟨"a/Left"⟩] },
    { subject := ⟨"a/Left"⟩, interfaces := [⟨"a/Right"⟩] },
    { subject := ⟨"a/Right"⟩, interfaces := [⟨"a/Left"⟩, ⟨"a/Lost"⟩] }]

/-- An engine that has been asked for a superclass and then released its reader. -/
def afterSuperclass : State String String FactTable.Reader FactTable.Ledger :=
  let asked := (State.start {}).superclassOf circles.readers "p" (.ofString "a.High")
  asked.2.finish circles.readers "p" true

theorem reachable_afterSuperclass : Reachable circles.readers afterSuperclass := by
  have ran : (State.start {}).run circles.readers [.ask "p" (.superclass "a.High") true] =
      some ([some (.name _)], afterSuperclass) := rfl
  exact ⟨{}, steps_of_run ran⟩

theorem implementsInterface_of_circles :
    ∃ after, afterSuperclass.ask circles.readers "p" (.implementsInterface "a.Low" "a.Lost") true =
      some (.flag true, after) := by
  obtain ⟨holds, after, asked, decided⟩ :=
    exists_ask_implementsInterface (answerFrom_readers circles) reachable_afterSuperclass
      "p" "a.Low" "a.Lost" true
  have low : TypeName.ofString "a.Low" = ⟨"a/Low"⟩ := by decide
  have up : Extends circles.find? (.ofString "a.Low") ⟨"a/High"⟩ := low ▸ .single ⟨_, rfl, rfl⟩
  have across : ReflTransGen (InterfaceOf circles.find?) ⟨"a/High"⟩ ⟨"a/Right"⟩ :=
    .tail (.single ⟨_, rfl, .head _⟩) ⟨_, rfl, .head _⟩
  have implements : Implements circles.find? (.ofString "a.Low") (.ofString "a.Lost") :=
    ⟨⟨"a/Right"⟩, _, ⟨⟨"a/High"⟩, up, across⟩, rfl, by decide⟩
  exact ⟨after, by rw [asked, decided.mpr implements]⟩

/-- **The lineage of a type is answered by the facts alone**: after any run, a type extends what
superclass edges lead to from it, itself first of all, and its superclass and interfaces are those
of its fact. -/
theorem exists_ask_lineage (answers : readers.AnswerFrom table.find?)
    (reachable : Reachable readers state) (project : π) (type target : String) (cleanup : Bool) :
    (∃ holds after,
      state.ask readers project (.extendsClass type target) cleanup = some (.flag holds, after) ∧
      (holds = true ↔ Extends table.find? (.ofString type) (.ofString target))) ∧
    (∃ after, state.ask readers project (.superclass type) cleanup =
      some (.name ((table.find? (.ofString type)).bind Fact.superclass), after)) ∧
    ∃ after, state.ask readers project (.interfaces type) cleanup =
      some (.names ((table.find? (.ofString type)).map Fact.interfaces), after) := by
  have coherent := reachable.coherent answers
  have given := (mirrors_lookFull answers project).mirrors (.ofString type) state coherent
  refine ⟨?_, ?_, ?_⟩
  · obtain ⟨holds, after, climbed, decided⟩ :=
      exists_extendsClass answers coherent project (.ofString type) (.ofString target)
    refine ⟨holds, after.finish readers project cleanup, ?_, decided⟩
    exact State.ask_of_answer (by simp [State.answer, climbed])
  · exact ⟨_, State.ask_of_answer (by rw [← given]; rfl)⟩
  · exact ⟨_, State.ask_of_answer (by rw [← given]; rfl)⟩

theorem lineage_of_circles :
    (∃ after, afterSuperclass.ask circles.readers "p" (.extendsClass "a/High" "a.Low") false =
      some (.flag true, after)) ∧
    (∃ after, afterSuperclass.ask circles.readers "p" (.superclass "a/High") false =
      some (.name (some ⟨"a/Low"⟩), after)) ∧
    ∃ after, afterSuperclass.ask circles.readers "p" (.interfaces "a/High") false =
      some (.names (some [⟨"a/Left"⟩]), after) := by
  obtain ⟨⟨holds, after, asked, decided⟩, superclass, interfaces⟩ :=
    exists_ask_lineage (answerFrom_readers circles) reachable_afterSuperclass
      "p" "a/High" "a.Low" false
  have high : TypeName.ofString "a/High" = ⟨"a/High"⟩ := by decide
  have low : TypeName.ofString "a.Low" = ⟨"a/Low"⟩ := by decide
  have up : Extends circles.find? (.ofString "a/High") (.ofString "a.Low") :=
    high ▸ low ▸ .single ⟨_, rfl, rfl⟩
  rw [high] at superclass interfaces
  exact ⟨⟨after, by rw [asked, decided.mpr up]⟩, superclass, interfaces⟩

end TypeLineage.Engine
