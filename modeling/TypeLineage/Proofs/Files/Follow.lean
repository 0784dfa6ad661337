import TypeLineage.Files.Disk
import Mathlib.Data.List.Basic

/-!
# Following paths

Empty texts between slashes, and dots, name nothing: wherever one stands in a path, all that is
asked there is that a directory has been reached. So following a path comes down to following its
names, and to asking for a directory at the end if the last text names nothing
(`follow_eq_follow_names`).
-/

namespace TypeLineage.Files

/-- Whether a text between slashes names something. -/
def isName (segment : String) : Bool :=
  !(segment == "" || segment == ".")

theorem isName_eq_false {segment : String} :
    isName segment = false ↔ segment = "" ∨ segment = "." := by
  rw [isName, Bool.not_eq_false', Bool.or_eq_true, beq_iff_eq, beq_iff_eq]

/-- Whether the last text of a path names nothing, so that the path leads to a directory if
anywhere. -/
def endsBlank (segments : List String) : Bool :=
  segments.getLast?.any fun segment => !isName segment

theorem endsBlank_cons (segment : String) {rest : List String} (more : rest ≠ []) :
    endsBlank (segment :: rest) = endsBlank rest := by
  rw [endsBlank, endsBlank, List.getLast?_cons]
  cases h : rest.getLast? with
  | none => exact absurd (List.getLast?_eq_none_iff.mp h) more
  | some last => rfl

theorem endsBlank_append {first rest : List String} (more : rest ≠ []) :
    endsBlank (first ++ rest) = endsBlank rest := by
  rw [endsBlank, endsBlank, List.getLast?_append_of_ne_nil _ more]

theorem endsBlank_name (segment : String) (rest : List String) (name : isName segment = true) :
    endsBlank (segment :: rest) = endsBlank rest := by
  cases rest with
  | nil => simp [endsBlank, name]
  | cons next more => exact endsBlank_cons segment (List.cons_ne_nil next more)

/-- The names of a path do not end in a text that names nothing. -/
theorem endsBlank_filter (segments : List String) : endsBlank (segments.filter isName) = false := by
  rw [endsBlank]
  cases h : (segments.filter isName).getLast? with
  | none => rfl
  | some last =>
    have member := List.mem_of_getLast? h
    simp [(List.mem_filter.mp member).2]

theorem filter_ne_nil {segments : List String} (some : segments ≠ [])
    (sound : endsBlank segments = false) : segments.filter isName ≠ [] := by
  intro nothing
  have h := List.getLast?_eq_some_getLast some
  have member := List.getLast_mem some
  have blank := List.filter_eq_nil_iff.mp nothing _ member
  rw [endsBlank, h] at sound
  simp [blank] at sound

/-- Whether a node is a link. -/
def Node.isLink : Node → Bool
  | .link _ => true
  | _ => false

namespace Disk

variable (disk : Disk) (links : Nat) (place : Place)

/-- A place where a directory stands. -/
def enter (place : Place) : Except Fault Place :=
  match disk.node? place with
  | some .directory => .ok place
  | some _ => .error .notDirectory
  | none => .error .missing

theorem enter_of_directory {place : Place} (h : disk.node? place = some .directory) :
    disk.enter place = .ok place := by
  rw [enter, h]

theorem eq_of_enter {place inside : Place} (h : disk.enter place = .ok inside) :
    inside = place ∧ disk.node? place = some .directory := by
  unfold enter at h
  split at h
  case h_1 here =>
    cases h
    exact ⟨rfl, here⟩
  all_goals cases h

/-! ### One text after the other -/

@[simp] theorem follow_nil : disk.follow links place [] = .ok place := by
  rw [follow]

theorem follow_blank {segment : String} (blank : isName segment = false) (rest : List String) :
    disk.follow links place (segment :: rest) =
      (disk.enter place).bind fun place => disk.follow links place rest := by
  have names := isName_eq_false.mp blank
  rw [follow, enter]
  cases h : disk.node? place with
  | none => rfl
  | some node => cases node <;> simp [names, Except.bind]

theorem follow_up (rest : List String) :
    disk.follow links place (".." :: rest) =
      (disk.enter place).bind fun place => disk.follow links place.dropLast rest := by
  rw [follow, enter]
  cases h : disk.node? place with
  | none => rfl
  | some node => cases node <;> simp [Except.bind]

theorem follow_name {segment : String} (name : isName segment = true) (other : segment ≠ "..")
    (rest : List String) :
    disk.follow links place (segment :: rest) =
      (disk.enter place).bind fun place =>
        match disk.node? (place ++ [segment]) with
        | none => .error .missing
        | some (.link target) =>
          match links with
          | 0 => .error .tooManyLinks
          | links + 1 =>
            disk.follow links (if target.isAbsolute then [] else place) (target.segments ++ rest)
        | some _ => disk.follow links (place ++ [segment]) rest := by
  have names : ¬(segment = "" ∨ segment = ".") := by
    rw [← isName_eq_false]
    simp [name]
  rw [follow, enter]
  cases h : disk.node? place with
  | none => rfl
  | some node =>
    cases node with
    | file content => rfl
    | link target => rfl
    | directory =>
      cases there : disk.node? (place ++ [segment]) with
      | none => simp [names, other, there, Except.bind]
      | some next =>
        cases next with
        | file content | directory => simp [names, other, there, Except.bind]
        | link target => cases links <;> simp [names, other, there, Except.bind]

/-- A name in a directory that is no link is gone along. -/
theorem follow_cons_of_node? {place : Place} {segment : String} {node : Node}
    (name : isName segment = true) (other : segment ≠ "..")
    (here : disk.node? place = some .directory)
    (there : disk.node? (place ++ [segment]) = some node) (plain : ∀ target, node ≠ .link target)
    (rest : List String) :
    disk.follow links place (segment :: rest) = disk.follow links (place ++ [segment]) rest := by
  rw [disk.follow_name links place name other, disk.enter_of_directory here]
  simp only [Except.bind, there]

/-- Whether texts lead straight down from a place: through directories, by names of what is there
and is no link, and never upwards. -/
def leadsDown (disk : Disk) (place : Place) : List String → Bool
  | [] => true
  | segment :: rest =>
    (disk.node? place).any Node.isDirectory &&
      if isName segment then
        segment != ".." && (disk.node? (place ++ [segment])).any (fun node => !node.isLink) &&
          leadsDown disk (place ++ [segment]) rest
      else leadsDown disk place rest

/-- Texts that lead straight down lead to the place of their names. -/
theorem follow_of_leadsDown {place : Place} {segments : List String}
    (down : disk.leadsDown place segments = true) :
    disk.follow links place segments = .ok (place ++ segments.filter isName) := by
  induction segments generalizing place with
  | nil => rw [follow_nil, List.filter_nil, List.append_nil]
  | cons segment rest ih =>
    rw [leadsDown, Bool.and_eq_true, Option.any_eq_true] at down
    obtain ⟨⟨node, here, directory⟩, down⟩ := down
    have here : disk.node? place = some .directory := by
      cases node with
      | directory => exact here
      | file content | link target => cases directory
    cases name : isName segment with
    | false =>
      rw [if_neg (by simp [name])] at down
      rw [disk.follow_blank links place name, disk.enter_of_directory here,
        List.filter_cons_of_neg (by simp [name])]
      exact ih down
    | true =>
      rw [if_pos name, Bool.and_eq_true, Bool.and_eq_true, Option.any_eq_true, bne_iff_ne] at down
      obtain ⟨⟨other, next, there, plain⟩, down⟩ := down
      rw [List.filter_cons_of_pos name, disk.follow_cons_of_node? links name other here there ?_ rest,
        ih down, List.append_assoc, List.singleton_append]
      rintro target rfl
      cases plain

theorem resolve_of_leadsDown {path : Path} {segments : List String}
    (written : path.segments = segments) (some : path.text.isEmpty = false)
    (down : disk.leadsDown (disk.startOf path) segments = true) :
    disk.resolve path = .ok (disk.startOf path ++ segments.filter isName) := by
  rw [resolve, if_neg (by simp [some]), written]
  exact disk.follow_of_leadsDown 40 down

theorem isDirectory_of_leadsDown {path : Path} {segments : List String}
    (written : path.segments = segments) (some : path.text.isEmpty = false)
    (down : disk.leadsDown (disk.startOf path) segments = true)
    (here : disk.node? (disk.startOf path ++ segments.filter isName) = .some .directory) :
    disk.isDirectory path = true := by
  rw [isDirectory, at?, disk.resolve_of_leadsDown written some down]
  simp only [here]

theorem isFile_of_leadsDown {path : Path} {segments : List String} {content : ByteArray}
    (written : path.segments = segments) (some : path.text.isEmpty = false)
    (down : disk.leadsDown (disk.startOf path) segments = true)
    (here : disk.node? (disk.startOf path ++ segments.filter isName) = .some (.file content)) :
    disk.isFile path = true := by
  rw [isFile, at?, disk.resolve_of_leadsDown written some down]
  simp only [here]

theorem read_of_leadsDown {path : Path} {segments : List String} {content : ByteArray}
    (written : path.segments = segments) (some : path.text.isEmpty = false)
    (down : disk.leadsDown (disk.startOf path) segments = true)
    (here : disk.node? (disk.startOf path ++ segments.filter isName) = .some (.file content)) :
    disk.read path = .ok content := by
  rw [read, disk.resolve_of_leadsDown written some down]
  simp only [bind, Except.bind, here]

/-- Whatever stands behind a place, it has to be a directory first. -/
theorem follow_enter {segments : List String} (more : segments ≠ []) :
    (disk.enter place).bind (fun place => disk.follow links place segments) =
      disk.follow links place segments := by
  cases segments with
  | nil => exact absurd rfl more
  | cons segment rest =>
    have again : ∀ next : Place → Except Fault Place,
        (disk.enter place).bind (fun place => (disk.enter place).bind next) =
          (disk.enter place).bind next := by
      intro next
      cases h : disk.enter place with
      | error fault => rfl
      | ok inside =>
        obtain ⟨rfl, here⟩ := disk.eq_of_enter h
        simp [Except.bind, h]
    cases name : isName segment with
    | false => simp only [disk.follow_blank links _ name, again]
    | true =>
      by_cases up : segment = ".."
      · subst up
        simp only [follow_up, again]
      · simp only [disk.follow_name links _ name up, again]

/-- What is asked at the end of a path: a directory, if the last text names nothing. -/
def land (segments : List String) (place : Place) : Except Fault Place :=
  if endsBlank segments then disk.enter place else .ok place

theorem land_of_names {segments : List String} (sound : endsBlank segments = false) :
    disk.land segments place = .ok place := by
  rw [land, sound]
  rfl

theorem land_cons (segment : String) {rest : List String} (more : rest ≠ []) :
    disk.land (segment :: rest) = disk.land rest := by
  funext place
  rw [land, land, endsBlank_cons segment more]

theorem land_name {segment : String} (name : isName segment = true) (rest : List String) :
    disk.land (segment :: rest) = disk.land rest := by
  funext place
  rw [land, land, endsBlank_name segment rest name]

theorem land_blank {segment : String} (blank : isName segment = false) :
    disk.land [segment] = disk.enter := by
  funext place
  simp [land, endsBlank, blank]

theorem land_append_filter (target rest : List String) :
    disk.land (target ++ rest) place =
      (disk.land (target ++ rest.filter isName) place).bind (disk.land rest) := by
  cases rest with
  | nil =>
    simp only [List.filter_nil]
    cases disk.land (target ++ []) place <;> rfl
  | cons segment more =>
    have some : segment :: more ≠ [] := List.cons_ne_nil segment more
    cases ends : endsBlank (segment :: more) with
    | false =>
      have left := filter_ne_nil some ends
      have sound : endsBlank (target ++ (segment :: more).filter isName) = false := by
        rw [endsBlank_append left, endsBlank_filter]
      rw [disk.land_of_names place sound, land, endsBlank_append some, ends]
      simp [Except.bind, land, ends]
    | true =>
      have asks : disk.land (segment :: more) = disk.enter := by
        funext place
        simp only [land, ends, if_true]
      rw [land, endsBlank_append some, ends, if_pos rfl, asks, land]
      split
      case isFalse => rfl
      case isTrue =>
        cases h : disk.enter place with
        | error fault => rfl
        | ok inside =>
          obtain ⟨rfl, -⟩ := disk.eq_of_enter h
          exact h.symm

/-- Following a path is following its names, and asking for a directory at the end if the last text
names nothing. -/
theorem follow_eq_follow_names (segments : List String) :
    disk.follow links place segments =
      (disk.follow links place (segments.filter isName)).bind (disk.land segments) := by
  -- A link brings a path of its own, at the price of one link; otherwise one text is used up.
  induction links using Nat.strongRecOn generalizing place segments with
  | _ links outer =>
    induction segments generalizing place with
    | nil => simp [land, endsBlank, Except.bind]
    | cons segment rest inner =>
      cases name : isName segment with
      | false =>
        rw [disk.follow_blank links place name, List.filter_cons_of_neg (by simp [name])]
        cases rest with
        | nil =>
          simp only [List.filter_nil, follow_nil]
          rw [disk.land_blank name]
          show _ = disk.enter place
          cases disk.enter place <;> rfl
        | cons next more =>
          have some : next :: more ≠ [] := List.cons_ne_nil next more
          rw [disk.follow_enter links place some, disk.land_cons segment some]
          exact inner place
      | true =>
        rw [List.filter_cons_of_pos name, disk.land_name name]
        by_cases up : segment = ".."
        · subst up
          rw [follow_up, follow_up]
          cases disk.enter place with
          | error fault => rfl
          | ok place => exact inner place.dropLast
        · rw [disk.follow_name links place name up, disk.follow_name links place name up]
          cases disk.enter place with
          | error fault => rfl
          | ok place =>
            simp only [Except.bind]
            cases disk.node? (place ++ [segment]) with
            | none => rfl
            | some node =>
              cases node with
              | file content => exact inner (place ++ [segment])
              | directory => exact inner (place ++ [segment])
              | link target =>
                cases links with
                | zero => rfl
                | succ links =>
                  have first := outer links (Nat.lt_succ_self links)
                    (if target.isAbsolute then [] else place) (target.segments ++ rest)
                  have second := outer links (Nat.lt_succ_self links)
                    (if target.isAbsolute then [] else place)
                    (target.segments ++ rest.filter isName)
                  have once : (rest.filter isName).filter isName = rest.filter isName := by simp
                  simp only [List.filter_append, once] at first second
                  simp only [first, second]
                  cases disk.follow links (if target.isAbsolute then [] else place)
                      (target.segments.filter isName ++ rest.filter isName) with
                  | error fault => rfl
                  | ok reached => exact disk.land_append_filter reached target.segments rest

end Disk

end TypeLineage.Files
