import TypeLineage.Fact.Cache
import Mathlib.Data.Finset.Card
import Mathlib.Data.Finset.Dedup

/-!
# What a cache remembers of its history

All that can be told from a cache is told by the operations that have been done on it since it was
new. For a name the fact of its first put is stored, whatever has been put for it later; a look
behind the first put of its name is a hit, and one before it a miss. One operation keeps the cache in
line with the history (`Remembers.perform`), so all of them do (`outcomes_of_history`).
-/

namespace TypeLineage.Cache

/-! ### Operations -/

/-- What can be done with a cache. -/
inductive Operation where
  /-- To store a fact for a name, unless it has one. -/
  | put (name : TypeName) (fact : Fact)
  /-- To look for the fact of a name. -/
  | get (name : TypeName)
  /-- To ask whether a name has a fact. -/
  | contains (name : TypeName)
  deriving DecidableEq, Repr

/-- What an operation gives back. -/
inductive Outcome where
  /-- The fact that is stored for the name in the end, or none. -/
  | fact (stored : Option Fact)
  /-- Yes or no. -/
  | flag (holds : Bool)
  deriving DecidableEq, Repr

/-- Does an operation. -/
def perform (cache : Cache) : Operation → Outcome × Cache
  | .put name fact =>
    let (stored, cache) := cache.put name fact
    (.fact (some stored), cache)
  | .get name =>
    let (found, cache) := cache.get name
    (.fact found, cache)
  | .contains name => (.flag (cache.contains name), cache)

/-- Does some operations, one after the other. -/
def run (cache : Cache) : List Operation → List Outcome × Cache
  | [] => ([], cache)
  | operation :: rest =>
    let (outcome, cache) := cache.perform operation
    let (outcomes, cache) := run cache rest
    (outcome :: outcomes, cache)

/-! ### Histories -/

namespace Operation

/-- The fact that an operation puts for a name. -/
def fact? (name : TypeName) : Operation → Option Fact
  | .put other fact => if other = name then some fact else none
  | .get _ => none
  | .contains _ => none

/-- The name that an operation puts a fact for. -/
def put? : Operation → Option TypeName
  | .put name _ => some name
  | .get _ => none
  | .contains _ => none

/-- The name that an operation looks for. -/
def get? : Operation → Option TypeName
  | .put _ _ => none
  | .get name => some name
  | .contains _ => none

theorem isSome_fact? {name : TypeName} {operation : Operation} :
    (operation.fact? name).isSome ↔ operation.put? = some name := by
  cases operation <;> simp [fact?, put?]

end Operation

/-- The fact of the first put of a name. -/
def firstPut (history : List Operation) (name : TypeName) : Option Fact :=
  history.findSome? (Operation.fact? name)

/-- The different names that facts have been put for. -/
def namesPut (history : List Operation) : Finset TypeName :=
  (history.filterMap Operation.put?).toFinset

/-- An operation, behind others, is a look behind the first put of its name. -/
def isHit (before : List Operation) (operation : Operation) : Bool :=
  operation.get?.any (· ∈ namesPut before)

/-- An operation, behind others, is a look before the first put of its name. -/
def isMiss (before : List Operation) (operation : Operation) : Bool :=
  operation.get?.any (· ∉ namesPut before)

/-- How many operations of a history pass a test, which is told those before the operation too. -/
def countWith (test : List Operation → Operation → Bool) (history : List Operation) : ℕ :=
  (List.range history.length).countP fun i => history[i]?.any (test (history.take i))

/-- What an operation gives back behind others. -/
def outcome (before : List Operation) : Operation → Outcome
  | .put name fact => .fact (firstPut (before ++ [.put name fact]) name)
  | .get name => .fact (firstPut before name)
  | .contains name => .flag (name ∈ namesPut before)

section Histories

variable {history : List Operation} {operation : Operation} {name : TypeName}
  {test : List Operation → Operation → Bool}

/-- A name has a first put if it has been put at all. -/
theorem isSome_firstPut : (firstPut history name).isSome ↔ name ∈ namesPut history := by
  rw [firstPut, List.findSome?_isSome_iff, namesPut, List.mem_toFinset, List.mem_filterMap]
  simp only [Operation.isSome_fact?]

theorem firstPut_append : firstPut (history ++ [operation]) name =
    (firstPut history name).or (operation.fact? name) := by
  rw [firstPut, List.findSome?_append, List.findSome?_singleton, firstPut]

/-- One more operation makes no difference to those before it. -/
theorem countWith_append : countWith test (history ++ [operation]) =
    countWith test history + if test history operation then 1 else 0 := by
  have before : ∀ i ∈ List.range history.length,
      ((history ++ [operation])[i]?.any (test ((history ++ [operation]).take i)) = true ↔
        history[i]?.any (test (history.take i)) = true) := by
    intro i inside
    have inside : i < history.length := List.mem_range.mp inside
    rw [List.getElem?_append_left inside, List.take_append_of_le_length inside.le]
  rw [countWith, List.length_append, List.length_singleton, List.range_succ, List.countP_append,
    List.countP_congr before, countWith]
  simp

end Histories

/-! ### What one operation changes -/

/-- A cache that is in line with the operations that have been done on it. -/
structure Remembers (history : List Operation) (cache : Cache) : Prop where
  /-- The fact of the first put of a name is stored for it. -/
  facts : ∀ name, cache.find? name = firstPut history name
  /-- No name has two entries. -/
  nodup : (cache.entries.map Prod.fst).Nodup
  /-- The looks behind the first puts of their names are counted. -/
  hits : cache.hits = countWith isHit history
  /-- The looks before the first puts of their names are counted. -/
  misses : cache.misses = countWith isMiss history

theorem remembers_nil : Remembers [] {} where
  facts _ := rfl
  nodup := List.nodup_nil
  hits := rfl
  misses := rfl

namespace Remembers

variable {history : List Operation} {cache : Cache} (h : Remembers history cache)

include h

theorem isSome_find? (name : TypeName) : (cache.find? name).isSome ↔ name ∈ namesPut history := by
  rw [h.facts, isSome_firstPut]

/-- There are as many entries as different names have been put. -/
theorem size_eq : cache.size = (namesPut history).card := by
  have same : (cache.entries.map Prod.fst).toFinset = namesPut history := by
    ext name
    rw [List.mem_toFinset, ← h.isSome_find?, ← Decidable.not_iff_not, ← find?_eq_none_iff,
      Option.not_isSome_iff_eq_none]
  rw [size, ← List.length_map (f := Prod.fst), ← List.toFinset_card_of_nodup h.nodup, same]

/-- The history tells what an operation gives back. -/
theorem outcome_perform (operation : Operation) :
    (cache.perform operation).1 = outcome history operation := by
  cases operation with
  | put name fact =>
    show Outcome.fact (some (cache.put name fact).1) = _
    rw [outcome, firstPut_append, ← h.facts]
    cases found : cache.find? name with
    | none => simp [put_of_find?_eq_none found, Operation.fact?]
    | some stored => simp [put_of_find?_eq_some found]
  | get name =>
    show Outcome.fact (cache.get name).1 = _
    rw [get_fst, h.facts, outcome]
  | contains name =>
    have known : cache.contains name = decide (name ∈ namesPut history) := by
      rw [Cache.contains, Bool.eq_iff_iff, h.isSome_find?, decide_eq_true_eq]
    exact congrArg Outcome.flag known

/-- What puts nothing leaves the first puts as they are. -/
theorem facts_append (operation : Operation) (silent : ∀ name, operation.fact? name = none)
    (name : TypeName) : cache.find? name = firstPut (history ++ [operation]) name := by
  rw [firstPut_append, silent, Option.or_none, h.facts]

/-- What looks for nothing leaves the counts as they are. -/
theorem counts_append (operation : Operation) (silent : operation.get? = none) :
    cache.hits = countWith isHit (history ++ [operation]) ∧
      cache.misses = countWith isMiss (history ++ [operation]) := by
  rw [countWith_append, countWith_append, h.hits, h.misses]
  simp [isHit, isMiss, silent]

/-- A put stores its fact unless there has been one, and is not counted. -/
theorem put (name : TypeName) (fact : Fact) :
    Remembers (history ++ [.put name fact]) (cache.put name fact).2 := by
  have facts : ∀ other, (cache.put name fact).2.find? other =
      firstPut (history ++ [.put name fact]) other := by
    intro other
    rw [find?_put, firstPut_append, ← h.facts]
    by_cases same : other = name
    · rw [if_pos same, same]
      cases cache.find? name <;> simp [Operation.fact?]
    · rw [if_neg same]
      simp [Operation.fact?, Ne.symm same]
  obtain ⟨hits, misses⟩ := h.counts_append (.put name fact) rfl
  cases found : cache.find? name with
  | none =>
    rw [put_of_find?_eq_none found] at facts ⊢
    refine ⟨facts, ?_, hits, misses⟩
    rw [List.map_append]
    exact h.nodup.append (List.nodup_singleton _) (by simpa using find?_eq_none_iff.mp found)
  | some stored =>
    rw [put_of_find?_eq_some found] at facts ⊢
    exact ⟨facts, h.nodup, hits, misses⟩

/-- A look is counted on the side that the first put of its name decides. -/
theorem get (name : TypeName) : Remembers (history ++ [.get name]) (cache.get name).2 := by
  have facts := h.facts_append (.get name) fun _ => rfl
  cases found : cache.find? name with
  | none =>
    have new : name ∉ namesPut history := by
      rw [← h.isSome_find?, found]
      simp
    rw [get_of_find?_eq_none found]
    refine ⟨facts, h.nodup, ?_, ?_⟩
    · simp [countWith_append, isHit, Operation.get?, new, h.hits]
    · simp [countWith_append, isMiss, Operation.get?, new, h.misses]
  | some fact =>
    have known : name ∈ namesPut history := by
      rw [← h.isSome_find?, found]
      rfl
    rw [get_of_find?_eq_some found]
    refine ⟨facts, h.nodup, ?_, ?_⟩
    · simp [countWith_append, isHit, Operation.get?, known, h.hits]
    · simp [countWith_append, isMiss, Operation.get?, known, h.misses]

/-- To ask changes nothing. -/
theorem contains (name : TypeName) : Remembers (history ++ [.contains name]) cache := by
  obtain ⟨hits, misses⟩ := h.counts_append (.contains name) rfl
  exact ⟨h.facts_append _ fun _ => rfl, h.nodup, hits, misses⟩

/-- An operation keeps the cache in line with the history. -/
theorem perform (operation : Operation) :
    Remembers (history ++ [operation]) (cache.perform operation).2 := by
  cases operation with
  | put name fact => exact h.put name fact
  | get name => exact h.get name
  | contains name => exact h.contains name

/-- So do all of them. -/
theorem run (rest : List Operation) : Remembers (history ++ rest) (cache.run rest).2 := by
  induction rest generalizing history cache with
  | nil => simpa [Cache.run] using h
  | cons operation rest ih =>
    have next := ih (h.perform operation)
    rwa [List.append_assoc, List.singleton_append] at next

/-- What each of them gives back is told by the operations before it. -/
theorem getElem?_run (rest : List Operation) (i : ℕ) :
    (cache.run rest).1[i]? = rest[i]?.map (outcome (history ++ rest.take i)) := by
  induction rest generalizing history cache i with
  | nil => rfl
  | cons operation rest ih =>
    cases i with
    | zero =>
      show some (cache.perform operation).1 = _
      rw [h.outcome_perform, List.getElem?_cons_zero, Option.map_some, List.take_zero,
        List.append_nil]
    | succ i =>
      have next := ih (h.perform operation) i
      rwa [List.append_assoc, List.singleton_append] at next

end Remembers

/-- **The history of a cache tells what it gives back and what it counts**, whatever is done on a
new one. A put and a look give back the fact of the first put of the name, and a look before there
is one gives none. There are as many entries as different names have been put. The hits are the
looks behind the first puts of their names, and the misses are those before; to put and to ask count
for neither. -/
theorem outcomes_of_history (history : List Operation) :
    let cache := (run {} history).2
    (∀ i : ℕ, (run {} history).1[i]? = history[i]?.map (outcome (history.take i))) ∧
      (cache.size = (namesPut history).card ∧ (cache.isEmpty = true ↔ cache.size = 0)) ∧
      (cache.hits = countWith isHit history ∧ cache.misses = countWith isMiss history) ∧
      (∀ name fact, (cache.perform (.put name fact)).2.hits = cache.hits ∧
        (cache.perform (.put name fact)).2.misses = cache.misses) ∧
      ∀ name, (cache.perform (.contains name)).2 = cache := by
  intro cache
  have remembers : Remembers history cache := remembers_nil.run history
  refine ⟨remembers_nil.getElem?_run history, ⟨remembers.size_eq, ?_⟩,
    ⟨remembers.hits, remembers.misses⟩, fun name fact => ?_, fun _ => rfl⟩
  · rw [isEmpty, List.isEmpty_iff, size, List.length_eq_zero_iff]
  · show (cache.put name fact).2.hits = cache.hits ∧ (cache.put name fact).2.misses = cache.misses
    cases found : cache.find? name with
    | none => simp [put_of_find?_eq_none found]
    | some stored => simp [put_of_find?_eq_some found]

end TypeLineage.Cache
