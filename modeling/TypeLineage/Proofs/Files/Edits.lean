import TypeLineage.Proofs.Files.Spelling
import TypeLineage.Proofs.Files.Way

/-!
# Trees that differ in some files

Regular files are put into a tree, taken out of it or written anew, and all else stays as it is
(`SameBut`). A path that leads to none of these files, neither before nor afterwards, leads to the
same place as before: a file can only be the end of a way.

Where files are put into directories that are new as well (`Gains`), a way might lead through a new
directory and out of it again. It does not if nothing leads upwards: then a way into what is new ends
there. So a path below a directory of the smaller tree leads to a file in both trees or in neither,
unless it leads to a new one.

Where only the contents of files are other ones (`SameShape`), paths lead to the same places.
-/

namespace TypeLineage.Files.Disk

variable {disk : Disk} {links left : Nat} {place reached : Place} {segments : List String}
  {places : List Place}

/-! ### Files -/

/-- At a place there is a regular file or nothing. -/
def IsLeaf (disk : Disk) (place : Place) : Prop :=
  ∀ node, disk.node? place = some node → ∃ content, node = .file content

/-- Two trees are the same but for some places, where each has a regular file or nothing. -/
structure SameBut (places : List Place) (disk other : Disk) : Prop where
  /-- Relative paths start in the same place. -/
  workplace : disk.workplace = other.workplace
  /-- Everywhere else stands the same. -/
  same : ∀ place, place ∉ places → disk.node? place = other.node? place
  /-- At the places there are files only. -/
  leaf : ∀ place ∈ places, disk.IsLeaf place ∧ other.IsLeaf place

/-- A way ends where a file is. -/
theorem Way.eq_of_file (way : disk.Way links place segments left reached) {content : ByteArray}
    (file : disk.node? place = some (.file content)) : reached = place := by
  cases way with
  | stay => rfl
  | blank _ here | up here | name _ _ here | link _ _ here =>
    rw [file] at here
    cases here

namespace SameBut

variable {other : Disk}

theorem symm (edited : SameBut places disk other) : SameBut places other disk where
  workplace := edited.workplace.symm
  same place apart := (edited.same place apart).symm
  leaf place member := (edited.leaf place member).symm

/-- A directory stands in both trees. -/
theorem node?_of_directory (edited : SameBut places disk other)
    (here : disk.node? place = some .directory) : other.node? place = some .directory := by
  by_cases member : place ∈ places
  · obtain ⟨content, file⟩ := (edited.leaf place member).1 _ here
    cases file
  · rw [← edited.same place member, here]

/-- A way that leads elsewhere in one tree leads there in the other. -/
theorem way (edited : SameBut places disk other)
    (way : disk.Way links place segments left reached) (apart : reached ∉ places) :
    other.Way links place segments left reached := by
  induction way with
  | stay links place => exact .stay links place
  | blank name here _ ih => exact .blank name (edited.node?_of_directory here) (ih apart)
  | up here _ ih => exact .up (edited.node?_of_directory here) (ih apart)
  | @name _ _ place _ segment _ _ name up here there plain onward ih =>
    have away : place ++ [segment] ∉ places := by
      intro member
      obtain ⟨content, rfl⟩ := (edited.leaf _ member).1 _ there
      exact apart (onward.eq_of_file there ▸ member)
    rw [edited.same _ away] at there
    exact .name name up (edited.node?_of_directory here) there plain (ih apart)
  | @link _ _ place _ segment _ _ name up here there _ ih =>
    have away : place ++ [segment] ∉ places := by
      intro member
      obtain ⟨content, file⟩ := (edited.leaf _ member).1 _ there
      cases file
    rw [edited.same _ away] at there
    exact .link name up (edited.node?_of_directory here) there (ih apart)

theorem resolve (edited : SameBut places disk other) {path : Path}
    (led : disk.resolve path = .ok reached) (apart : reached ∉ places) :
    other.resolve path = .ok reached := by
  have start : other.startOf path = disk.startOf path := by
    rw [startOf, startOf, edited.workplace]
  unfold Disk.resolve at led ⊢
  split at led
  case isTrue => cases led
  case isFalse some =>
    rw [if_neg some, start]
    obtain ⟨left, way⟩ := exists_way led
    exact (edited.way way apart).follow

/-- A path that leads to none of the files leads to a file in both trees or in neither. -/
theorem isFile_eq (edited : SameBut places disk other) {path : Path}
    (apart : ∀ place ∈ places, disk.resolve path ≠ .ok place ∧ other.resolve path ≠ .ok place) :
    disk.isFile path = other.isFile path := by
  unfold isFile at?
  cases here : disk.resolve path with
  | ok reached =>
    have away : reached ∉ places := by
      intro member
      exact (apart reached member).1 here
    rw [edited.resolve here away]
    simp only [edited.same reached away]
  | error fault =>
    cases there : other.resolve path with
    | error fault => rfl
    | ok reached =>
      have away : reached ∉ places := by
        intro member
        exact (apart reached member).2 there
      rw [edited.symm.resolve there away] at here
      cases here

end SameBut

/-! ### Files with their directories -/

/-- A tree has files and directories at some places where the other has nothing. All that stands below
these places is new, and no link of the tree leads upwards. -/
structure Gains (places : List Place) (disk more : Disk) : Prop where
  /-- Relative paths start in the same place. -/
  workplace : disk.workplace = more.workplace
  /-- Everywhere else stands the same. -/
  same : ∀ place, place ∉ places → disk.node? place = more.node? place
  /-- At the places there was nothing. -/
  fresh : ∀ place ∈ places, disk.node? place = none
  /-- There are no links now. -/
  plain : ∀ place ∈ places, ∀ target, more.node? place ≠ some (.link target)
  /-- What stands below them is new. -/
  below : ∀ place ∈ places, ∀ name, more.node? (place ++ [name]) ≠ none → place ++ [name] ∈ places
  /-- Links do not lead upwards. -/
  level : ∀ place target, more.node? place = some (.link target) → ".." ∉ target.segments

namespace Gains

variable {more : Disk}

theorem node?_of_some (gains : Gains places disk more) {node : Node}
    (here : disk.node? place = some node) : more.node? place = some node := by
  have away : place ∉ places := by
    intro member
    rw [gains.fresh place member] at here
    cases here
  rw [← gains.same place away, here]

/-- A way of the smaller tree is one of the larger tree. -/
theorem way (gains : Gains places disk more)
    (way : disk.Way links place segments left reached) :
    more.Way links place segments left reached := by
  induction way with
  | stay links place => exact .stay links place
  | blank name here _ ih => exact .blank name (gains.node?_of_some here) ih
  | up here _ ih => exact .up (gains.node?_of_some here) ih
  | name name up here there plain _ ih =>
    exact .name name up (gains.node?_of_some here) (gains.node?_of_some there) plain ih
  | link name up here there _ ih =>
    exact .link name up (gains.node?_of_some here) (gains.node?_of_some there) ih

/-- A way that starts at a new place and does not lead upwards ends at a new place. -/
theorem ends_within (gains : Gains places disk more)
    (way : more.Way links place segments left reached) (level : ".." ∉ segments)
    (member : place ∈ places) : reached ∈ places := by
  induction way with
  | stay => exact member
  | blank _ _ _ ih => exact ih (List.not_mem_of_not_mem_cons level) member
  | up => exact absurd List.mem_cons_self level
  | name _ _ _ there _ _ ih =>
    refine ih (List.not_mem_of_not_mem_cons level) (gains.below _ member _ ?_)
    rw [there]
    exact Option.some_ne_none _
  | link _ _ _ there _ =>
    have inside := gains.below _ member _ (by rw [there]; exact Option.some_ne_none _)
    exact absurd there (gains.plain _ inside _)

/-- A way of the larger tree that ends at no new place is one of the smaller tree, if it does not lead
upwards. -/
theorem way_back (gains : Gains places disk more)
    (way : more.Way links place segments left reached) (level : ".." ∉ segments)
    (apart : reached ∉ places) : disk.Way links place segments left reached := by
  induction way with
  | stay links place => exact .stay links place
  | blank name here onward ih =>
    have away := fun member => apart (gains.ends_within (.blank name here onward) level member)
    rw [← gains.same _ away] at here
    exact .blank name here (ih (List.not_mem_of_not_mem_cons level) apart)
  | up => exact absurd List.mem_cons_self level
  | name name up here there plain onward ih =>
    have rest := List.not_mem_of_not_mem_cons level
    have away := fun member =>
      apart (gains.ends_within (.name name up here there plain onward) level member)
    have next := fun member => apart (gains.ends_within onward rest member)
    rw [← gains.same _ away] at here
    rw [← gains.same _ next] at there
    exact .name name up here there plain (ih rest apart)
  | @link _ _ place _ segment rest target name up here there onward ih =>
    have away := fun member =>
      apart (gains.ends_within (.link name up here there onward) level member)
    have next := fun member => gains.plain _ member _ there
    have further : ".." ∉ target.segments ++ rest := by
      rw [List.mem_append]
      rintro (inside | behind)
      · exact gains.level _ _ there inside
      · exact List.not_mem_of_not_mem_cons level behind
    rw [← gains.same _ away] at here
    rw [← gains.same _ next] at there
    exact .link name up here there (ih further apart)

/-- Below a directory of the smaller tree a path that leads nowhere new leads to a file in both trees or
in neither, if nothing in it leads upwards; what is written of the directory may. -/
theorem isFile_join (gains : Gains places disk more) {directory below : Path}
    (there : disk.isDirectory directory = true) (level : ".." ∉ below.segments)
    (sound : endsBlank below.segments = false)
    (apart : ∀ place ∈ places, more.resolve (directory.join below) ≠ .ok place) :
    disk.isFile (directory.join below) = more.isFile (directory.join below) := by
  have start : ∀ path, more.startOf path = disk.startOf path := by
    intro path
    rw [startOf, startOf, gains.workplace]
  -- The way to the directory is one in both trees, and from there on nothing leads upwards.
  obtain ⟨links, base, rest, onward, here, again⟩ : ∃ links base rest, ".." ∉ rest ∧
      disk.resolve (directory.join below) = disk.follow links base rest ∧
      more.resolve (directory.join below) = more.follow links base rest := by
    cases absolute : below.isAbsolute with
    | true =>
      rw [Path.join_of_isAbsolute absolute]
      have some : below.text.isEmpty = false := by
        rw [← Bool.not_eq_true, String.isEmpty_iff]
        intro nothing
        simp [Path.isAbsolute, nothing] at absolute
      refine ⟨40, disk.startOf below, below.segments, level, ?_, ?_⟩
      · rw [Disk.resolve, if_neg (by simp [some])]
      · rw [Disk.resolve, if_neg (by simp [some]), start]
    | false =>
      obtain ⟨some, base, led, -⟩ := disk.isDirectory_iff.mp there
      obtain ⟨left, way⟩ := exists_way led
      refine ⟨left, base, below.names, ?_, ?_, ?_⟩
      · intro member
        exact level (List.mem_filter.mp member).1
      · rw [disk.resolve_join some absolute sound, way.follow_append]
      · rw [more.resolve_join some absolute sound, start, (gains.way way).follow_append]
  unfold isFile at?
  rw [here, again]
  cases led : more.follow links base rest with
  | ok reached =>
    have away : reached ∉ places := by
      intro member
      exact apart reached member (again.trans led)
    obtain ⟨left, way⟩ := exists_way led
    rw [(gains.way_back way onward away).follow]
    simp only [gains.same reached away]
  | error fault =>
    cases found : disk.follow links base rest with
    | error other => rfl
    | ok reached =>
      obtain ⟨left, way⟩ := exists_way found
      rw [(gains.way way).follow] at led
      cases led

end Gains

/-! ### Contents of files -/

/-- Two trees are the same but for what stands in their files. -/
structure SameShape (disk other : Disk) : Prop where
  /-- Relative paths start in the same place. -/
  workplace : disk.workplace = other.workplace
  /-- What stands somewhere stands there in both trees, or both have a file there. -/
  alike : ∀ place node, disk.node? place = some node → other.node? place = some node ∨
    ∃ content content', node = .file content ∧ other.node? place = some (.file content')

namespace SameShape

variable {other : Disk}

theorem node?_eq (shape : SameShape disk other) {node : Node}
    (here : disk.node? place = some node) (plain : ∀ content, node ≠ .file content) :
    other.node? place = some node := by
  rcases shape.alike place node here with same | ⟨content, content', file, -⟩
  · exact same
  · exact absurd file (plain content)

/-- What stands in files is not looked at on a way. -/
theorem way (shape : SameShape disk other) (way : disk.Way links place segments left reached) :
    other.Way links place segments left reached := by
  induction way with
  | stay links place => exact .stay links place
  | blank name here _ ih => exact .blank name (shape.node?_eq here (by simp)) ih
  | up here _ ih => exact .up (shape.node?_eq here (by simp)) ih
  | name name up here there plain _ ih =>
    rcases shape.alike _ _ there with same | ⟨content, content', -, file⟩
    · exact .name name up (shape.node?_eq here (by simp)) same plain ih
    · exact .name name up (shape.node?_eq here (by simp)) file (by simp) ih
  | link name up here there _ ih =>
    exact .link name up (shape.node?_eq here (by simp)) (shape.node?_eq there (by simp)) ih

theorem resolve (shape : SameShape disk other) {path : Path}
    (led : disk.resolve path = .ok reached) : other.resolve path = .ok reached := by
  have start : other.startOf path = disk.startOf path := by
    rw [startOf, startOf, shape.workplace]
  unfold Disk.resolve at led ⊢
  split at led
  case isTrue => cases led
  case isFalse some =>
    rw [if_neg some, start]
    obtain ⟨left, way⟩ := exists_way led
    exact (shape.way way).follow

end SameShape

end TypeLineage.Files.Disk
