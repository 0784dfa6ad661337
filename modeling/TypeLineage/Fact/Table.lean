import TypeLineage.Engine.Readers

/-!
# A table of facts

Facts that are given beforehand instead of being read from sources, and readers that answer from
them. The readers of one table share a ledger that records how they are used, so it can be told how
often the engine makes readers, releases them, and reads each name.
-/

namespace TypeLineage

/-- Facts given beforehand, the last one first. -/
structure FactTable where
  /-- The facts by name; of two facts for one name the first in the list counts. -/
  entries : List (TypeName × Fact) := []
  deriving DecidableEq, Repr, Inhabited

namespace FactTable

/-- The fact of a name. -/
def find? (table : FactTable) (name : TypeName) : Option Fact :=
  table.entries.lookup name

/-- The table with one more fact, which counts from now on. -/
def add (table : FactTable) (fact : Fact) : FactTable :=
  ⟨(fact.subject, fact) :: table.entries⟩

/-- The table of a list of facts, in which the last fact of a name counts. -/
def ofList (facts : List Fact) : FactTable :=
  facts.foldl add {}

/-- How the readers of a table have been used. -/
structure Ledger where
  /-- How many readers have been made. -/
  created : Nat := 0
  /-- How many readers have been released. -/
  released : Nat := 0
  /-- How often a reader was asked after it had been released. -/
  readsAfterRelease : Nat := 0
  /-- The names that readers were asked for, the last one first. -/
  reads : List TypeName := []
  deriving DecidableEq, Repr

namespace Ledger

/-- How often readers were asked for a name. -/
def readsOf (ledger : Ledger) (name : TypeName) : Nat :=
  ledger.reads.count name

/-- How often readers were asked for any name. -/
def totalReads (ledger : Ledger) : Nat :=
  ledger.reads.length

end Ledger

/-- A reader of a table. -/
structure Reader where
  /-- Whether it has been released. -/
  released : Bool := false
  deriving DecidableEq, Repr

/-- Makes a reader. -/
def createReader (ledger : Ledger) : Reader × Ledger :=
  ({}, { ledger with created := ledger.created + 1 })

/-- Asks a reader for a name. A released reader answers too, but that is recorded. -/
def read (table : FactTable) (reader : Reader) (name : TypeName) (ledger : Ledger) :
    Option Fact × Reader × Ledger :=
  let late := if reader.released then 1 else 0
  (table.find? name, reader,
    { ledger with
      readsAfterRelease := ledger.readsAfterRelease + late
      reads := name :: ledger.reads })

/-- Releases a reader; a second time nothing happens. -/
def releaseReader (reader : Reader) (ledger : Ledger) : Reader × Ledger :=
  if reader.released then (reader, ledger)
  else ({ released := true }, { ledger with released := ledger.released + 1 })

/-- The readers that answer from a table, for projects that are known by name. -/
def readers (table : FactTable) : Engine.Readers String String Reader Ledger where
  key project := project
  create _ ledger := createReader ledger
  read reader name ledger := table.read reader name ledger
  release reader ledger := releaseReader reader ledger

end FactTable

end TypeLineage
