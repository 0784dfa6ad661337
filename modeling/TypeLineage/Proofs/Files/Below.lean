import TypeLineage.Proofs.Files.Spelling
import TypeLineage.Proofs.Files.Way
import Mathlib.Data.List.Induction

/-!
# What a directory holds

A directory without links holds certain files, and directories on the way to them. However the
directory is reached, a path below it leads to the file of its text, and to no file if there is none.
-/

namespace TypeLineage.Files

/-- The texts between the slashes tell the spelling of a path. -/
theorem Path.text_eq_of_segments {path other : Path} (same : path.segments = other.segments) :
    path.text = other.text := by
  have pieces := (List.map_inj_right fun _ _ => String.ofList_injective).mp same
  have chars := congrArg (Text.join ['/']) pieces
  rwa [Text.join_splitOn, Text.join_splitOn, String.toList_inj] at chars

namespace Disk

/-- What stands at a place other than the top is listed. -/
theorem mem_nodes_of_node? {disk : Disk} {place : Place} {node : Node} (below : place ≠ [])
    (there : disk.node? place = some node) : (place, node) ∈ disk.nodes := by
  unfold node? at there
  rw [if_neg (by simpa using below)] at there
  obtain ⟨first, rest, listed, -⟩ := List.lookup_eq_some_iff.mp there
  simp [listed]

/-- A path that goes on where another leads is followed from there, with the links that are left. -/
theorem exists_follow_append {disk : Disk} {links : Nat} {place reached : Place}
    {first : List String} (led : disk.follow links place first = .ok reached) :
    ∃ left, ∀ rest, disk.follow links place (first ++ rest) = disk.follow left reached rest := by
  obtain ⟨left, way⟩ := exists_way led
  exact ⟨left, way.follow_append⟩

/-- The files that a directory holds, by the texts of their paths below it. There are no links among
them, and what stands somewhere stands in a directory. -/
structure Holds (disk : Disk) (directory : Path) (files : List (String × ByteArray)) (place : Place) :
    Prop where
  /-- The path of the directory leads to this place. -/
  leads : disk.resolve directory = .ok place
  /-- A directory is there. -/
  here : disk.node? place = some .directory
  /-- The files below it are these. -/
  files : ∀ text content, disk.node? (place ++ (Path.mk text).segments) = some (.file content) ↔
    files.lookup text = some content
  /-- There are no links below it. -/
  plain : ∀ below target, disk.node? (place ++ below) ≠ some (.link target)
  /-- What is below it is in a directory. -/
  rooted : ∀ below name, disk.node? (place ++ (below ++ [name])) ≠ none →
    disk.node? (place ++ below) = some .directory

namespace Holds

variable {disk : Disk} {directory : Path} {files : List (String × ByteArray)} {place : Place}

theorem directory_above (h : disk.Holds directory files place) (below : List String)
    {rest : List String} (more : rest ≠ [])
    (there : disk.node? (place ++ (below ++ rest)) ≠ none) :
    disk.node? (place ++ below) = some .directory := by
  induction rest using List.reverseRecOn with
  | nil => exact absurd rfl more
  | append_singleton rest name ih =>
    have above := h.rooted (below ++ rest) name (by rwa [List.append_assoc])
    by_cases last : rest = []
    · rwa [last, List.append_nil] at above
    · exact ih last (by simp [above])

/-- Names below the directory lead to where they say, if something is there. -/
theorem follow_of_node? (h : disk.Holds directory files place) (links : Nat)
    {below rest : List String} (names : ∀ name ∈ rest, isName name = true ∧ name ≠ "..")
    (there : disk.node? (place ++ (below ++ rest)) ≠ none) :
    disk.follow links (place ++ below) rest = .ok (place ++ (below ++ rest)) := by
  induction rest generalizing below with
  | nil => rw [follow_nil, List.append_nil]
  | cons name rest ih =>
    have split : below ++ name :: rest = (below ++ [name]) ++ rest := by simp
    have inside := h.directory_above below (List.cons_ne_nil name rest) there
    rw [split] at there ⊢
    have step : disk.node? (place ++ (below ++ [name])) ≠ none := by
      by_cases last : rest = []
      · rwa [last, List.append_nil] at there
      · simp [h.directory_above (below ++ [name]) last there]
    obtain ⟨node, next⟩ := Option.ne_none_iff_exists'.mp step
    rw [← ih (fun other member => names other (List.mem_cons_of_mem _ member)) there,
      ← List.append_assoc]
    obtain ⟨sound, other⟩ := names name List.mem_cons_self
    refine disk.follow_cons_of_node? links sound other inside
      ((congrArg disk.node? (List.append_assoc ..)).trans next) ?_ rest
    rintro target rfl
    exact h.plain _ _ next

/-- And they lead nowhere else. -/
theorem eq_of_follow (h : disk.Holds directory files place) {links : Nat}
    {below rest : List String} {reached : Place}
    (names : ∀ name ∈ rest, isName name = true ∧ name ≠ "..")
    (led : disk.follow links (place ++ below) rest = .ok reached) :
    reached = place ++ (below ++ rest) := by
  induction rest generalizing below with
  | nil =>
    rw [follow_nil] at led
    cases led
    rw [List.append_nil]
  | cons name rest ih =>
    have split : below ++ name :: rest = (below ++ [name]) ++ rest := by simp
    obtain ⟨sound, other⟩ := names name List.mem_cons_self
    rw [disk.follow_name links _ sound other] at led
    rw [split]
    refine ih (fun other member => names other (List.mem_cons_of_mem _ member)) ?_
    cases entered : disk.enter (place ++ below) with
    | error fault => simp [entered, Except.bind] at led
    | ok inside =>
      obtain ⟨rfl, -⟩ := disk.eq_of_enter entered
      simp only [entered, Except.bind, List.append_assoc] at led
      cases there : disk.node? (place ++ (below ++ [name])) with
      | none => simp [there] at led
      | some node =>
        cases node with
        | link target => exact absurd there (h.plain _ _)
        | file content | directory => simpa [there] using led

/-- The path of the directory leads to the place of its files by its names. -/
theorem follow_names (h : disk.Holds directory files place) :
    directory.text ≠ "" ∧
      disk.follow 40 (disk.startOf directory) directory.names = .ok place := by
  have isDirectory : disk.isDirectory directory = true := by
    rw [isDirectory, at?, h.leads]
    simp [h.here]
  obtain ⟨filled, place', led, here⟩ := disk.isDirectory_iff.mp isDirectory
  have leads := h.leads
  rw [disk.resolve_eq filled, led] at leads
  refine ⟨filled, led.trans ?_⟩
  have landed : disk.land directory.segments place' = .ok place' := by
    rw [land, disk.enter_of_directory here]
    split <;> rfl
  exact landed.symm.trans leads

/-- A path of names below the directory gives the bytes of its file, if there is one. -/
theorem toOption_read_join (h : disk.Holds directory files place) {below : Path}
    (relative : below.isAbsolute = false)
    (names : ∀ name ∈ below.segments, isName name = true ∧ name ≠ "..") :
    (disk.read (directory.join below)).toOption = files.lookup below.text := by
  obtain ⟨filled, led⟩ := h.follow_names
  have all : below.names = below.segments :=
    List.filter_eq_self.mpr fun name member => (names name member).1
  have sound : endsBlank below.segments = false := by
    rw [← all]
    exact endsBlank_filter below.segments
  obtain ⟨left, onward⟩ := exists_follow_append led
  have resolved : disk.resolve (directory.join below) =
      disk.follow left (place ++ []) below.segments := by
    rw [disk.resolve_join filled relative sound, onward, all, List.append_nil]
  rw [read, resolved]
  cases found : files.lookup below.text with
  | some content =>
    have node : disk.node? (place ++ below.segments) = some (.file content) :=
      (h.files below.text content).mpr found
    have followed : disk.follow left (place ++ []) below.segments =
        .ok (place ++ ([] ++ below.segments)) := by
      refine h.follow_of_node? left names ?_
      rw [List.nil_append, node]
      exact Option.some_ne_none _
    rw [followed]
    simp [bind, Except.bind, node, Except.toOption]
  | none =>
    cases followed : disk.follow left (place ++ []) below.segments with
    | error fault => rfl
    | ok reached =>
      obtain rfl := h.eq_of_follow names followed
      simp only [bind, Except.bind, List.nil_append]
      cases there : disk.node? (place ++ below.segments) with
      | none => rfl
      | some node =>
        cases node with
        | file content =>
          rw [(h.files below.text content).mp there] at found
          cases found
        | directory | link target => rfl

end Holds

end Disk

end TypeLineage.Files
