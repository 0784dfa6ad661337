import TypeLineage.Proofs.Files.Follow

/-!
# Ways

The steps that are taken when a path is followed to its end, as a relation with one constructor for
each kind of step (`Way`). A path leads somewhere exactly if there is a way (`exists_way`,
`Way.follow`), so what is to be shown of all that can be reached goes by induction on the way.
-/

namespace TypeLineage.Files.Disk

/-- From a place texts lead to another place, and of the links that may be taken some are left. -/
inductive Way (disk : Disk) : Nat → Place → List String → Nat → Place → Prop
  /-- Without a text the way ends. -/
  | stay (links : Nat) (place : Place) : Way disk links place [] links place
  /-- A text that names nothing leads nowhere else. -/
  | blank {links left : Nat} {place reached : Place} {segment : String} {rest : List String} :
    isName segment = false → disk.node? place = some .directory →
    Way disk links place rest left reached → Way disk links place (segment :: rest) left reached
  /-- Two points lead upwards. -/
  | up {links left : Nat} {place reached : Place} {rest : List String} :
    disk.node? place = some .directory → Way disk links place.dropLast rest left reached →
    Way disk links place (".." :: rest) left reached
  /-- A name leads to what is called so, if it is no link. -/
  | name {links left : Nat} {place reached : Place} {segment : String} {rest : List String}
    {node : Node} : isName segment = true → segment ≠ ".." →
    disk.node? place = some .directory → disk.node? (place ++ [segment]) = some node →
    (∀ target, node ≠ .link target) → Way disk links (place ++ [segment]) rest left reached →
    Way disk links place (segment :: rest) left reached
  /-- A link brings a path of its own. -/
  | link {links left : Nat} {place reached : Place} {segment : String} {rest : List String}
    {target : Path} : isName segment = true → segment ≠ ".." →
    disk.node? place = some .directory → disk.node? (place ++ [segment]) = some (.link target) →
    Way disk links (if target.isAbsolute then [] else place) (target.segments ++ rest) left reached →
    Way disk (links + 1) place (segment :: rest) left reached

variable {disk : Disk}

/-- Where a path leads there is a way. -/
theorem exists_way {links : Nat} {place reached : Place} {segments : List String}
    (led : disk.follow links place segments = .ok reached) :
    ∃ left, disk.Way links place segments left reached := by
  -- A link brings a path of its own, at the price of one link; otherwise one text is used up.
  induction links using Nat.strongRecOn generalizing place segments with
  | _ links outer =>
    induction segments generalizing place with
    | nil =>
      rw [follow_nil] at led
      cases led
      exact ⟨links, .stay links _⟩
    | cons segment rest inner =>
      cases name : isName segment with
      | false =>
        rw [disk.follow_blank links place name] at led
        cases entered : disk.enter place with
        | error fault => simp [entered, Except.bind] at led
        | ok inside =>
          obtain ⟨rfl, here⟩ := disk.eq_of_enter entered
          obtain ⟨left, way⟩ := inner (by simpa [entered, Except.bind] using led)
          exact ⟨left, .blank name here way⟩
      | true =>
        by_cases up : segment = ".."
        · subst up
          rw [follow_up] at led
          cases entered : disk.enter place with
          | error fault => simp [entered, Except.bind] at led
          | ok inside =>
            obtain ⟨rfl, here⟩ := disk.eq_of_enter entered
            obtain ⟨left, way⟩ := inner (by simpa [entered, Except.bind] using led)
            exact ⟨left, .up here way⟩
        · rw [disk.follow_name links place name up] at led
          cases entered : disk.enter place with
          | error fault => simp [entered, Except.bind] at led
          | ok inside =>
            obtain ⟨rfl, here⟩ := disk.eq_of_enter entered
            simp only [entered, Except.bind] at led
            cases there : disk.node? (inside ++ [segment]) with
            | none => simp [there] at led
            | some node =>
              cases node with
              | file content =>
                obtain ⟨left, way⟩ := inner (by simpa [there] using led)
                exact ⟨left, .name name up here there (by simp) way⟩
              | directory =>
                obtain ⟨left, way⟩ := inner (by simpa [there] using led)
                exact ⟨left, .name name up here there (by simp) way⟩
              | link target =>
                cases links with
                | zero => simp [there] at led
                | succ links =>
                  simp only [there] at led
                  obtain ⟨left, way⟩ := outer links (Nat.lt_succ_self links) led
                  exact ⟨left, .link name up here there way⟩

namespace Way

variable {links left : Nat} {place reached : Place} {segments : List String}

/-- A path that goes on where a way ends is followed from there, with the links that are left. -/
theorem follow_append (way : disk.Way links place segments left reached) (rest : List String) :
    disk.follow links place (segments ++ rest) = disk.follow left reached rest := by
  induction way with
  | stay => rfl
  | blank name here _ ih =>
    rw [List.cons_append, disk.follow_blank _ _ name, disk.enter_of_directory here]
    exact ih
  | up here _ ih =>
    rw [List.cons_append, follow_up, disk.enter_of_directory here]
    exact ih
  | name name up here there plain _ ih =>
    rw [List.cons_append, disk.follow_cons_of_node? _ name up here there plain, ih]
  | link name up here there _ ih =>
    rw [List.cons_append, disk.follow_name _ _ name up, disk.enter_of_directory here]
    simp only [Except.bind, there]
    rw [← ih, List.append_assoc]

/-- A way leads to its end. -/
theorem follow (way : disk.Way links place segments left reached) :
    disk.follow links place segments = .ok reached := by
  have whole := way.follow_append []
  rwa [List.append_nil, follow_nil] at whole

end Way

end TypeLineage.Files.Disk
