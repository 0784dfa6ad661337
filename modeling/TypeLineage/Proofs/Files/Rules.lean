import TypeLineage.Files.Ignore
import TypeLineage.Proofs.Files.Follow

/-!
# Rules on the way to an entry

Whether an entry is passed over is up to the rules of the directories that it is in. The nearest of
them that says anything decides (`passedOver_of_decideBy`); where none of them has rules, nothing is
passed over (`passedOver_eq_false`).
-/

namespace TypeLineage.Files.Disk

variable {disk : Disk} {place : Place} {names : List String} {isDirectory : Bool}

/-- There is a file of rules in a directory, or a link that leads to one. -/
def HoldsRules (disk : Disk) (directory : Place) : Prop :=
  ∃ found content, disk.follow 40 directory [".ignore"] = .ok found ∧
    disk.node? found = some (.file content)

theorem ignoreRules_of_not_holdsRules (without : ¬ disk.HoldsRules place) :
    disk.ignoreRules place = [] := by
  unfold ignoreRules
  cases led : disk.follow 40 place [".ignore"] with
  | error fault => rfl
  | ok found =>
    cases there : disk.node? found with
    | none => simp [there]
    | some node =>
      cases node with
      | file content => exact absurd ⟨found, content, led, there⟩ without
      | directory | link target => simp [there]

theorem not_holdsRules_of_node? (none : disk.node? (place ++ [".ignore"]) = none) :
    ¬ disk.HoldsRules place := by
  rintro ⟨found, content, led, -⟩
  rw [disk.follow_name 40 place (by decide) (by decide)] at led
  cases entered : disk.enter place with
  | error fault => simp [entered, Except.bind] at led
  | ok inside =>
    obtain ⟨rfl, -⟩ := disk.eq_of_enter entered
    simp [entered, Except.bind, none] at led

/-- The rules of a directory are those of the file in it. -/
theorem ignoreRules_of_node? {content : ByteArray} (here : disk.node? place = some .directory)
    (there : disk.node? (place ++ [".ignore"]) = some (.file content)) :
    disk.ignoreRules place = IgnoreRule.ofText (IgnoreRule.readable content) := by
  rw [ignoreRules, disk.follow_cons_of_node? 40 (by decide) (by decide) here there (by simp)]
  simp [there]

/-- Without rules in the directories that it is in an entry is not passed over. -/
theorem passedOver_eq_false
    (without : ∀ directory rest, rest ≠ [] → place ++ names = directory ++ rest →
      disk.ignoreRules directory = []) :
    disk.passedOver place names isDirectory = false := by
  have silent : ((List.range (place ++ names).length).reverse.findSome? fun depth =>
      decideBy (disk.ignoreRules ((place ++ names).take depth))
        (String.intercalate "/" ((place ++ names).drop depth)) isDirectory) = none := by
    rw [List.findSome?_eq_none_iff]
    intro depth member
    rw [List.mem_reverse, List.mem_range] at member
    have more : (place ++ names).drop depth ≠ [] := by
      rw [ne_eq, List.drop_eq_nil_iff]
      omega
    rw [without _ _ more (List.take_append_drop depth _).symm]
    rfl
  rw [passedOver, silent]
  rfl

/-- The directory that an entry is in is asked first. -/
theorem passedOver_of_decideBy {name : String} {decided : Bool}
    (decides : decideBy (disk.ignoreRules (place ++ names)) name isDirectory = some decided) :
    disk.passedOver place (names ++ [name]) isDirectory = decided := by
  have whole : place ++ (names ++ [name]) = (place ++ names) ++ [name] :=
    (List.append_assoc _ _ _).symm
  have depths : (List.range ((place ++ names) ++ [name]).length).reverse =
      (place ++ names).length :: (List.range (place ++ names).length).reverse := by
    rw [List.length_append, List.length_singleton, List.range_succ, List.reverse_concat]
  rw [passedOver, whole, depths, List.findSome?_cons, List.take_left, List.drop_left,
    String.intercalate_singleton, decides]
  rfl

end TypeLineage.Files.Disk
