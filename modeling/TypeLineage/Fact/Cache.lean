import TypeLineage.Fact

/-!
# The cache of facts

The facts of one project that have been read so far. Facts do not change, so the first fact stored
for a name is the one that every later look finds. Looks are counted, whether they find something
or not; storing and asking whether a name is there are not counted.

The counts are natural numbers. A counter of 64 bits shows the same up to `2 ^ 64` looks, and starts
anew then.
-/

namespace TypeLineage

/-- Facts by name, and how often a look for one has found it or not. -/
structure Cache where
  /-- The facts, the first stored first. -/
  entries : List (TypeName × Fact) := []
  /-- How many looks have found a fact; the count has no bound. -/
  hits : Nat := 0
  /-- How many looks have found none; the count has no bound. -/
  misses : Nat := 0
  deriving DecidableEq, Repr, Inhabited

namespace Cache

/-- The fact stored for a name; the look is not counted. -/
def find? (cache : Cache) (name : TypeName) : Option Fact :=
  cache.entries.lookup name

/-- Whether a fact is stored for a name. -/
def contains (cache : Cache) (name : TypeName) : Bool :=
  (cache.find? name).isSome

/-- How many facts are stored. -/
def size (cache : Cache) : Nat :=
  cache.entries.length

/-- Whether nothing is stored. -/
def isEmpty (cache : Cache) : Bool :=
  cache.entries.isEmpty

/-- A counted look for a name. -/
def get (cache : Cache) (name : TypeName) : Option Fact × Cache :=
  match cache.find? name with
  | some fact => (some fact, { cache with hits := cache.hits + 1 })
  | none => (none, { cache with misses := cache.misses + 1 })

/-- Stores a fact for a name that has none yet; gives back the fact that is stored in the end. -/
def put (cache : Cache) (name : TypeName) (fact : Fact) : Fact × Cache :=
  match cache.find? name with
  | some stored => (stored, cache)
  | none => (fact, { cache with entries := cache.entries ++ [(name, fact)] })

/-! ### What each operation does to the stored facts -/

/-- A look changes no stored fact. -/
@[simp] theorem find?_get (cache : Cache) (name other : TypeName) :
    (cache.get name).2.find? other = cache.find? other := by
  unfold get
  cases cache.find? name <;> rfl

/-- A look finds what is stored. -/
@[simp] theorem get_fst (cache : Cache) (name : TypeName) :
    (cache.get name).1 = cache.find? name := by
  unfold get
  cases h : cache.find? name <;> simp

theorem get_of_find?_eq_none {cache : Cache} {name : TypeName} (h : cache.find? name = none) :
    cache.get name = (none, { cache with misses := cache.misses + 1 }) := by
  simp [get, h]

theorem get_of_find?_eq_some {cache : Cache} {name : TypeName} {fact : Fact}
    (h : cache.find? name = some fact) :
    cache.get name = (some fact, { cache with hits := cache.hits + 1 }) := by
  simp [get, h]

theorem put_of_find?_eq_none {cache : Cache} {name : TypeName} (h : cache.find? name = none)
    (fact : Fact) :
    cache.put name fact = (fact, { cache with entries := cache.entries ++ [(name, fact)] }) := by
  simp [put, h]

theorem put_of_find?_eq_some {cache : Cache} {name : TypeName} {stored : Fact}
    (h : cache.find? name = some stored) (fact : Fact) : cache.put name fact = (stored, cache) := by
  simp [put, h]

/-- No fact is found for a name exactly if there is no entry for it. -/
theorem find?_eq_none_iff {cache : Cache} {name : TypeName} :
    cache.find? name = none ↔ name ∉ cache.entries.map Prod.fst := by
  rw [find?, List.lookup_eq_none_iff, List.mem_map]
  constructor
  · rintro apart ⟨entry, member, rfl⟩
    exact bne_iff_ne.mp (apart entry member) rfl
  · intro absent entry member
    exact bne_iff_ne.mpr fun same => absent ⟨entry, member, same.symm⟩

/-- After storing, a name that had no fact has the new one, and every other name what it had. -/
theorem find?_put (cache : Cache) (name other : TypeName) (fact : Fact) :
    (cache.put name fact).2.find? other =
      if other = name then some ((cache.find? name).getD fact) else cache.find? other := by
  unfold put
  cases h : cache.find? name with
  | some stored =>
    by_cases ho : other = name
    · subst ho; simp [h]
    · simp [ho]
  | none =>
    by_cases ho : other = name
    · subst ho
      simp only [find?] at h
      simp [find?, List.lookup_append, h]
    · simp [find?, List.lookup_append, ho, List.lookup_cons, beq_eq_false_iff_ne.mpr ho]

end Cache

end TypeLineage
