import TypeLineage.Proofs.Files.Follow
import TypeLineage.Proofs.Text.Pieces

/-!
# Spellings of paths

The components of a path say where it starts and which names it goes along; all else is spelling.
Where a directory is meant, spelling makes no difference: paths with the same components lead to the
same directory, and to the same things below it. A file is different: with a slash or a dot behind
its name, a path to it leads nowhere.
-/

namespace TypeLineage

namespace Files

/-- The text of a component that is followed; where a path starts is not. -/
def Component.step? : Component → Option String
  | .top => none
  | .here => none
  | .up => some ".."
  | .name text => some text

namespace Path

/-- The names along which a path goes. -/
def names (path : Path) : List String :=
  path.segments.filter isName

theorem segments_ne_nil (path : Path) : path.segments ≠ [] := by
  rw [segments, ne_eq, List.map_eq_nil_iff]
  exact Text.splitOn_ne_nil '/' path.text.toList

theorem component?_eq_none {segment : String} (blank : isName segment = false) :
    component? segment = none := by
  rw [component?, if_pos (isName_eq_false.mp blank)]

theorem step?_component? {segment : String} (name : isName segment = true) :
    (component? segment).bind Component.step? = some segment := by
  have some : ¬(segment = "" ∨ segment = ".") := by
    rw [← isName_eq_false]
    simp [name]
  rw [component?, if_neg some]
  split
  case isTrue up =>
    subst up
    rfl
  case isFalse => rfl

theorem filterMap_step?_component? (segments : List String) :
    (segments.filterMap component?).filterMap Component.step? = segments.filter isName := by
  rw [List.filterMap_filterMap]
  induction segments with
  | nil => rfl
  | cons segment rest ih =>
    cases name : isName segment with
    | false =>
      rw [List.filter_cons_of_neg (by simp [name]), ← ih,
        List.filterMap_cons_none (by rw [component?_eq_none name]; rfl)]
    | true =>
      have step : (fun text => (component? text).bind Component.step?) segment = some segment :=
        step?_component? name
      rw [List.filter_cons_of_pos name, ← ih]
      exact List.filterMap_cons_some step

/-- Texts that do not lead upwards stand for the names among them. -/
theorem filterMap_component? {segments : List String} (level : ".." ∉ segments) :
    segments.filterMap component? = (segments.filter isName).map .name := by
  induction segments with
  | nil => rfl
  | cons segment rest ih =>
    rw [List.mem_cons, not_or] at level
    cases name : isName segment with
    | false =>
      rw [List.filterMap_cons_none (component?_eq_none name), ih level.2,
        List.filter_cons_of_neg (by simp [name])]
    | true =>
      have plain : ¬(segment = "" ∨ segment = ".") := by
        rw [← isName_eq_false, name]
        exact Bool.noConfusion
      have read : component? segment = some (.name segment) := by
        rw [component?, if_neg plain, if_neg (Ne.symm level.1)]
      rw [List.filterMap_cons_some read, ih level.2, List.filter_cons_of_pos name, List.map_cons]

/-- The component that says where a path starts, if it does not start with a name. -/
def lead (path : Path) : List Component :=
  if path.isAbsolute then [.top] else if path.segments.head? = some "." then [.here] else []

theorem components_eq (path : Path) :
    path.components = path.lead ++ path.segments.filterMap component? := by
  unfold components lead
  split
  · rfl
  · split
    case isTrue here =>
      have split : path.segments = "." :: path.segments.tail := (List.cons_head?_tail here).symm
      have dropped : component? "." = none := by decide
      rw [split, List.tail_cons, List.filterMap_cons_none dropped]
      rfl
    · rfl

/-- The components of a path tell the names along which it goes. -/
theorem names_eq (path : Path) : path.names = path.components.filterMap Component.step? := by
  have start : path.lead.filterMap Component.step? = [] := by
    unfold lead
    split_ifs <;> rfl
  rw [components_eq, List.filterMap_append, start, List.nil_append]
  exact (filterMap_step?_component? path.segments).symm

theorem top_not_mem (segments : List String) : Component.top ∉ segments.filterMap component? := by
  rw [List.mem_filterMap]
  rintro ⟨segment, -, h⟩
  unfold component? at h
  split at h
  · cases h
  · split at h <;> cases h

/-- The components of a path tell whether it starts at the top. -/
theorem isAbsolute_eq (path : Path) :
    path.isAbsolute = (path.components.head? == some .top) := by
  unfold components
  split
  case isTrue absolute => simp [absolute]
  case isFalse relative =>
    rw [Bool.not_eq_true] at relative
    rw [relative]
    split
    · rfl
    · cases h : (path.segments.filterMap component?).head? with
      | none => rfl
      | some first =>
        have member := List.mem_of_head? h
        cases first with
        | top => exact absurd member (top_not_mem path.segments)
        | here | up | name text => rfl

/-- Only the empty path has no components. -/
theorem text_eq_empty_iff (path : Path) : path.text = "" ↔ path.components = [] := by
  constructor
  · intro nothing
    cases path with
    | mk text =>
      simp only at nothing
      subst nothing
      decide
  · intro nothing
    unfold components at nothing
    split at nothing
    · cases nothing
    case isFalse relative =>
      split at nothing
      · cases nothing
      case isFalse elsewhere =>
        have first : path.segments.head? =
            some (String.ofList (path.text.toList.takeWhile (· != '/'))) := by
          rw [segments, List.head?_map, Text.head?_splitOn]
          rfl
        have blank : isName (String.ofList (path.text.toList.takeWhile (· != '/'))) = false := by
          by_contra name
          rw [Bool.not_eq_false] at name
          have given := List.filterMap_eq_nil_iff.mp nothing _ (List.mem_of_head? first)
          have step := step?_component? name
          rw [given] at step
          cases step
        rcases isName_eq_false.mp blank with empty | dot
        · cases chars : path.text.toList with
          | nil => exact String.toList_eq_nil_iff.mp chars
          | cons c rest =>
            rw [isAbsolute, chars] at relative
            rw [chars, String.ofList_eq_empty_iff] at empty
            have other : c ≠ '/' := by simpa using relative
            simp [other] at empty
        · rw [dot] at first
          exact absurd first elsewhere

/-! ### Paths below a directory -/

theorem isAbsolute_append {text : String} (some : text ≠ "") (more : String) :
    (Path.mk (text ++ more)).isAbsolute = (Path.mk text).isAbsolute := by
  have chars : text.toList ≠ [] := by simpa using some
  obtain ⟨c, rest, h⟩ := List.exists_cons_of_ne_nil chars
  simp [isAbsolute, h]

/-- The texts of a path below a directory are those of the two paths, but for an empty one at the end
of the first. -/
theorem exists_segments_join {base below : Path} (some : base.text ≠ "")
    (relative : below.isAbsolute = false) :
    ∃ first, first ≠ [] ∧ (base.join below).segments = first ++ below.segments ∧
      (base.segments = first ∨ base.segments = first ++ [""]) := by
  have empty : base.text.isEmpty = false := by simpa using some
  rw [join, relative, empty, Bool.false_or, if_neg (by simp)]
  split
  case isTrue slash =>
    have last : base.text.toList.getLast? = Option.some '/' := by simpa using slash
    obtain ⟨before, h⟩ := List.getLast?_eq_some_iff.mp last
    refine ⟨(Text.splitOn '/' before).map String.ofList, ?_, ?_, .inr ?_⟩
    · simpa using Text.splitOn_ne_nil '/' before
    · simp [segments, h, Text.splitOn_append]
    · simp [segments, h, Text.splitOn_append, Text.splitOn]
  case isFalse =>
    refine ⟨base.segments, base.segments_ne_nil, ?_, .inl rfl⟩
    simp [segments, Text.splitOn_append]

theorem segments_join {base below : Path} (some : base.text ≠ "")
    (relative : below.isAbsolute = false) :
    ∃ first, (base.join below).segments = first ++ below.segments ∧
      first.filter isName = base.names := by
  obtain ⟨first, -, segments, same | blank⟩ := exists_segments_join some relative
  · exact ⟨first, segments, by rw [names, same]⟩
  · exact ⟨first, segments, by rw [names, blank, List.filter_append]; simp [isName]⟩

theorem isAbsolute_join {base below : Path} (some : base.text ≠ "")
    (relative : below.isAbsolute = false) : (base.join below).isAbsolute = base.isAbsolute := by
  have empty : base.text.isEmpty = false := by simpa using some
  rw [join, relative, empty, Bool.false_or, if_neg (by simp)]
  split
  · exact isAbsolute_append some below.text
  · rw [String.append_assoc]
    exact isAbsolute_append some _

/-- The components of a relative path below a directory come after those of the directory. -/
theorem components_join {base below : Path} (some : base.text ≠ "")
    (relative : below.isAbsolute = false) :
    (base.join below).components = base.components ++ below.segments.filterMap component? := by
  obtain ⟨first, filled, segments, ends⟩ := exists_segments_join some relative
  have start : (base.join below).isAbsolute = base.isAbsolute := isAbsolute_join some relative
  have head : first.head? = base.segments.head? := by
    obtain ⟨head, tail, rfl⟩ := List.exists_cons_of_ne_nil filled
    rcases ends with same | blank
    · rw [same]
    · rw [blank, List.cons_append, List.head?_cons, List.head?_cons]
  have rest : base.segments.filterMap component? = first.filterMap component? := by
    have dropped : component? "" = none := by decide
    rcases ends with same | blank
    · rw [same]
    · rw [blank, List.filterMap_append, List.filterMap_cons_none dropped, List.filterMap_nil,
        List.append_nil]
  have lead : (base.join below).lead = base.lead := by
    rw [lead, lead, start, segments, List.head?_append_of_ne_nil _ filled, head]
  rw [components_eq, components_eq, lead, segments, List.filterMap_append, rest, List.append_assoc]

theorem text_join_ne_empty {base below : Path} (some : base.text ≠ "")
    (relative : below.isAbsolute = false) : (base.join below).text ≠ "" := by
  have empty : base.text.isEmpty = false := by simpa using some
  rw [join, relative, empty, Bool.false_or, if_neg (by simp)]
  split <;> simp [some]

theorem join_of_isAbsolute {base below : Path} (absolute : below.isAbsolute = true) :
    base.join below = below := by
  rw [join, absolute]
  rfl

theorem join_of_empty {base below : Path} (nothing : base.text = "") : base.join below = below := by
  have empty : base.text.isEmpty = true := by simpa using nothing
  rw [join, empty, Bool.or_true, if_pos rfl]

end Path

namespace Disk

variable (disk : Disk)

/-- A path that is not empty leads where its names lead, and to a directory only if its last text
names nothing. -/
theorem resolve_eq {path : Path} (some : path.text ≠ "") :
    disk.resolve path =
      (disk.follow 40 (disk.startOf path) path.names).bind (disk.land path.segments) := by
  have empty : path.text.isEmpty = false := by simpa using some
  rw [resolve, empty, if_neg (by simp)]
  exact disk.follow_eq_follow_names 40 (disk.startOf path) path.segments

/-- A path below another goes on with its names where the other leads. -/
theorem resolve_join {base below : Path} (some : base.text ≠ "")
    (relative : below.isAbsolute = false) (sound : endsBlank below.segments = false) :
    disk.resolve (base.join below) =
      disk.follow 40 (disk.startOf base) (base.names ++ below.names) := by
  obtain ⟨first, segments, names⟩ := Path.segments_join some relative
  have filled := Path.text_join_ne_empty some relative
  have start : disk.startOf (base.join below) = disk.startOf base := by
    rw [startOf, startOf, Path.isAbsolute_join some relative]
  have whole : (base.join below).names = base.names ++ below.names := by
    rw [Path.names, segments, List.filter_append, names]
    rfl
  have ends : endsBlank (base.join below).segments = false := by
    rw [segments, endsBlank_append below.segments_ne_nil, sound]
  rw [disk.resolve_eq filled, start, whole]
  cases disk.follow 40 (disk.startOf base) (base.names ++ below.names) with
  | error fault => rfl
  | ok place => exact disk.land_of_names place ends

theorem resolve_of_empty {path : Path} (nothing : path.text = "") :
    disk.resolve path = .error .missing := by
  have empty : path.text.isEmpty = true := by simpa using nothing
  rw [resolve, if_pos empty]

/-- A path leads to a directory if its names do. -/
theorem isDirectory_iff {path : Path} :
    disk.isDirectory path = true ↔ path.text ≠ "" ∧ ∃ place,
      disk.follow 40 (disk.startOf path) path.names = .ok place ∧
        disk.node? place = some .directory := by
  constructor
  · intro directory
    by_cases nothing : path.text = ""
    · simp [isDirectory, at?, disk.resolve_of_empty nothing] at directory
    refine ⟨nothing, ?_⟩
    rw [isDirectory, at?, disk.resolve_eq nothing] at directory
    cases led : disk.follow 40 (disk.startOf path) path.names with
    | error fault => simp [led, Except.bind] at directory
    | ok place =>
      refine ⟨place, rfl, ?_⟩
      rw [led] at directory
      simp only [Except.bind, land] at directory
      cases ends : endsBlank path.segments with
      | true =>
        cases h : disk.enter place with
        | error fault => simp [ends, h] at directory
        | ok inside => exact (disk.eq_of_enter h).2
      | false =>
        cases h : disk.node? place with
        | none => simp [ends, h] at directory
        | some node =>
          cases node with
          | directory => rfl
          | file content | link target => simp [ends, h] at directory
  · rintro ⟨some, place, led, here⟩
    have landed : disk.land path.segments place = .ok place := by
      rw [land, disk.enter_of_directory here]
      split <;> rfl
    rw [isDirectory, at?, disk.resolve_eq some, led]
    simp [Except.bind, landed, here]

/-- A path leads to a file if its names do and its last text is one of them. -/
theorem resolve_of_isFile {path : Path} (file : disk.isFile path = true) :
    ∃ place, disk.follow 40 (disk.startOf path) path.names = .ok place ∧
      disk.resolve path = .ok place := by
  have some : path.text ≠ "" := by
    intro nothing
    simp [isFile, at?, disk.resolve_of_empty nothing] at file
  rw [disk.resolve_eq some]
  rw [isFile, at?, disk.resolve_eq some] at file
  cases led : disk.follow 40 (disk.startOf path) path.names with
  | error fault => simp [led, Except.bind] at file
  | ok place =>
    refine ⟨place, rfl, ?_⟩
    rw [led] at file
    simp only [Except.bind, land] at file ⊢
    split
    case isFalse => rfl
    case isTrue blank =>
      rw [if_pos blank] at file
      cases h : disk.enter place with
      | error fault => simp [h] at file
      | ok inside =>
        obtain ⟨rfl, here⟩ := disk.eq_of_enter h
        simp [h, here] at file

/-! ### Paths with the same components -/

section SameComponents

variable {disk} {path other : Path} (same : path.components = other.components)

include same

theorem startOf_congr : disk.startOf path = disk.startOf other := by
  rw [startOf, startOf, Path.isAbsolute_eq, Path.isAbsolute_eq, same]

theorem names_congr : path.names = other.names := by
  rw [Path.names_eq, Path.names_eq, same]

theorem text_eq_empty_congr : path.text = "" ↔ other.text = "" := by
  rw [Path.text_eq_empty_iff, Path.text_eq_empty_iff, same]

/-- What is a directory is one in every spelling. -/
theorem isDirectory_congr : disk.isDirectory path = disk.isDirectory other := by
  rw [Bool.eq_iff_iff, isDirectory_iff, isDirectory_iff, startOf_congr same, names_congr same,
    ne_eq, ne_eq, text_eq_empty_congr same]

/-- The spellings that lead to a file at all lead to the same. -/
theorem read_congr (file : disk.isFile path = true) (file' : disk.isFile other = true) :
    disk.read path = disk.read other := by
  obtain ⟨place, led, resolved⟩ := disk.resolve_of_isFile file
  obtain ⟨place', led', resolved'⟩ := disk.resolve_of_isFile file'
  rw [startOf_congr same, names_congr same, led'] at led
  cases led
  rw [read, read, resolved, resolved']

/-- What is below a directory is found in every spelling of the directory. -/
theorem resolve_join_congr {below : Path} (sound : endsBlank below.segments = false) :
    disk.resolve (path.join below) = disk.resolve (other.join below) := by
  cases absolute : below.isAbsolute with
  | true => rw [Path.join_of_isAbsolute absolute, Path.join_of_isAbsolute absolute]
  | false =>
    by_cases nothing : path.text = ""
    · rw [Path.join_of_empty nothing,
        Path.join_of_empty ((text_eq_empty_congr same).mp nothing)]
    · have some := mt (text_eq_empty_congr same).mpr nothing
      rw [resolve_join disk nothing absolute sound, resolve_join disk some absolute sound,
        startOf_congr same, names_congr same]

end SameComponents

end Disk

end Files

end TypeLineage
