import TypeLineage.Proofs.Text.ByteOrder
import TypeLineage.TypeName

/-!
# Names as they are understood

What a text names has no dots and no blanks at its ends (`canonical_ofString`). Such a name is read
back from each of its forms, the one with slashes and the one with dots, so both tell it from others.
Among the characters the slash comes right behind the dot, which canonical names do not have: they are
ordered as their dotted forms are, and these as their bytes are (`ofString_faithful`).
-/

namespace TypeLineage

namespace Text

theorem dropWhile_isBlank_eq_self {text : List Char}
    (front : ∀ c ∈ text.head?, isBlank c = false) : text.dropWhile isBlank = text := by
  cases text with
  | nil => rfl
  | cons c rest =>
    have plain : isBlank c = false := front c rfl
    rw [List.dropWhile_cons_of_neg (by simp [plain])]

/-- Nothing is cut off a text whose ends are not blank. -/
theorem trim_eq_self {text : List Char} (front : ∀ c ∈ text.head?, isBlank c = false)
    (back : ∀ c ∈ text.getLast?, isBlank c = false) : trim text = text := by
  rw [trim, dropWhile_isBlank_eq_self front, trimEnd, dropWhile_isBlank_eq_self,
    List.reverse_reverse]
  simpa using back

/-- An end of a text stays plain if each character is written as a plain one. -/
theorem isBlank_map {f : Char → Char} (kept : ∀ {c}, isBlank c = false → isBlank (f c) = false)
    {end? : Option Char} (plain : ∀ c ∈ end?, isBlank c = false) :
    ∀ c ∈ end?.map f, isBlank c = false := by
  intro c member
  obtain ⟨d, inside, rfl⟩ := Option.map_eq_some_iff.mp member
  exact kept (plain d inside)

end Text

namespace TypeName

/-! ### Dots and slashes -/

theorem isBlank_slash {c : Char} (plain : Text.isBlank c = false) :
    Text.isBlank (slash c) = false := by
  unfold slash
  split
  · decide
  · exact plain

theorem isBlank_dot {c : Char} (plain : Text.isBlank c = false) : Text.isBlank (dot c) = false := by
  unfold dot
  split
  · decide
  · exact plain

theorem slash_ne_dot (c : Char) : slash c ≠ '.' := by
  unfold slash
  split
  case isTrue => decide
  case isFalse other => exact other

theorem slash_dot {c : Char} (plain : c ≠ '.') : slash (dot c) = c := by
  unfold dot
  split
  case isTrue same => rw [same]; rfl
  case isFalse => exact if_neg plain

theorem toNat_dot (c : Char) : (dot c).toNat = if c.toNat = 47 then 46 else c.toNat := by
  unfold dot
  by_cases same : c = '/'
  · rw [same]
    rfl
  · have apart : c.toNat ≠ 47 := fun number => same (Char.toNat_inj.mp number)
    rw [if_neg same, if_neg apart]

/-- No character lies between the dot and the slash. -/
theorem dot_lt_dot_iff {c d : Char} (plain : c ≠ '.') (plain' : d ≠ '.') :
    dot c < dot d ↔ c < d := by
  have apart : c.toNat ≠ 46 := fun number => plain (Char.toNat_inj.mp number)
  have apart' : d.toNat ≠ 46 := fun number => plain' (Char.toNat_inj.mp number)
  have numbers : (dot c).toNat < (dot d).toNat ↔ c.toNat < d.toNat := by
    rw [toNat_dot, toNat_dot]
    split_ifs <;> omega
  exact numbers

theorem dot_eq_dot_iff {c d : Char} (plain : c ≠ '.') (plain' : d ≠ '.') :
    dot c = dot d ↔ c = d := by
  refine ⟨fun same => ?_, congrArg dot⟩
  rw [← slash_dot plain, same, slash_dot plain']

section Texts

variable {text other : List Char}

theorem map_slash_of_not_mem (undotted : '.' ∉ text) : text.map slash = text := by
  have kept : ∀ c ∈ text, slash c = c := fun c member =>
    if_neg (ne_of_mem_of_not_mem member undotted)
  rw [List.map_congr_left kept, List.map_id']

theorem map_slash_map_dot (undotted : '.' ∉ text) : (text.map dot).map slash = text := by
  have kept : ∀ c ∈ text, slash (dot c) = c := fun c member =>
    slash_dot (ne_of_mem_of_not_mem member undotted)
  rw [List.map_map]
  exact (List.map_congr_left kept).trans (List.map_id' text)

/-- Writing slashes as dots keeps the order of texts without dots. -/
theorem map_dot_lt_iff (undotted : '.' ∉ text) (undotted' : '.' ∉ other) :
    text.map dot < other.map dot ↔ text < other := by
  induction text generalizing other with
  | nil => cases other <;> simp
  | cons c text ih =>
    cases other with
    | nil => simp
    | cons d other =>
      rw [List.mem_cons, not_or] at undotted undotted'
      obtain ⟨plain, undotted⟩ := undotted
      obtain ⟨plain', undotted'⟩ := undotted'
      rw [List.map_cons, List.map_cons, List.cons_lt_cons_iff, List.cons_lt_cons_iff,
        dot_lt_dot_iff (Ne.symm plain) (Ne.symm plain'),
        dot_eq_dot_iff (Ne.symm plain) (Ne.symm plain'), ih undotted undotted']

end Texts

/-- A text without dots and without blanks at its ends is understood as it is. -/
theorem ofString_eq_self {text : String} (undotted : '.' ∉ text.toList)
    (front : ∀ c ∈ text.toList.head?, Text.isBlank c = false)
    (back : ∀ c ∈ text.toList.getLast?, Text.isBlank c = false) : ofString text = ⟨text⟩ := by
  rw [ofString, Text.trim_eq_self front back, map_slash_of_not_mem undotted, String.ofList_toList]

/-! ### Canonical names -/

/-- A name that has no dots, and no blanks at its ends. -/
structure Canonical (name : TypeName) : Prop where
  /-- Its parts are separated by slashes. -/
  undotted : '.' ∉ name.internal.toList
  /-- It does not start with a blank. -/
  front : ∀ c ∈ name.internal.toList.head?, Text.isBlank c = false
  /-- It does not end with a blank. -/
  back : ∀ c ∈ name.internal.toList.getLast?, Text.isBlank c = false

/-- What a text names is canonical. -/
theorem canonical_ofString (raw : String) : (ofString raw).Canonical := by
  have chars : (ofString raw).internal.toList = (Text.trim raw.toList).map slash :=
    String.toList_ofList
  constructor
  · rw [chars]
    intro member
    obtain ⟨c, -, same⟩ := List.mem_map.mp member
    exact slash_ne_dot c same
  · rw [chars, List.head?_map]
    exact Text.isBlank_map isBlank_slash fun _ => Text.isBlank_head_trim
  · rw [chars, List.getLast?_map]
    exact Text.isBlank_map isBlank_slash fun _ => Text.isBlank_getLast_trim

namespace Canonical

variable {name other : TypeName} (canonical : name.Canonical) (canonical' : other.Canonical)

include canonical

/-- A canonical name is what its form with slashes names. -/
theorem ofString_internal : ofString name.internal = name :=
  ofString_eq_self canonical.undotted canonical.front canonical.back

/-- A canonical name is what its dotted form names. -/
theorem ofString_dotted : ofString name.dotted = name := by
  have chars : name.dotted.toList = name.internal.toList.map dot := String.toList_ofList
  have front : ∀ c ∈ name.dotted.toList.head?, Text.isBlank c = false := by
    rw [chars, List.head?_map]
    exact Text.isBlank_map isBlank_dot canonical.front
  have back : ∀ c ∈ name.dotted.toList.getLast?, Text.isBlank c = false := by
    rw [chars, List.getLast?_map]
    exact Text.isBlank_map isBlank_dot canonical.back
  rw [ofString, Text.trim_eq_self front back, chars, map_slash_map_dot canonical.undotted,
    String.ofList_toList]

include canonical'

/-- Canonical names are told from each other by their dotted forms. -/
theorem eq_iff_dotted : name = other ↔ name.dotted = other.dotted := by
  refine ⟨congrArg dotted, fun same => ?_⟩
  rw [← canonical.ofString_dotted, same, canonical'.ofString_dotted]

/-- Canonical names are ordered as their dotted forms are. -/
theorem lt_iff_dotted : name < other ↔ name.dotted < other.dotted := by
  have forms : name < other ↔ name.internal.toList < other.internal.toList :=
    String.lt_iff_toList_lt
  rw [forms, String.lt_iff_toList_lt, dotted, dotted, String.toList_ofList, String.toList_ofList,
    map_dot_lt_iff canonical.undotted canonical'.undotted]

theorem le_iff_dotted : name ≤ other ↔ name.dotted ≤ other.dotted := by
  have forms : name ≤ other ↔ ¬ other < name := (not_lt (α := String)).symm
  rw [forms, canonical'.lt_iff_dotted canonical, not_lt]

end Canonical

/-- The dotted forms of sorted names are the sorted dotted forms. -/
theorem map_dotted_sort {names : List TypeName} (canonical : ∀ name ∈ names, name.Canonical) :
    (sort names).map dotted = Text.ascending (names.map dotted) := by
  apply List.map_mergeSort
  intro a member b member'
  rw [decide_eq_decide, ← Text.le_iff_bytes]
  exact (canonical a member).le_iff_dotted (canonical b member')

/-- **What texts name is canonical, and is read back from both of its forms.** The dotted forms tell
the names from each other and have their order, byte by byte, as the forms with slashes have; so the
texts that show sorted names are sorted themselves. -/
theorem ofString_faithful (s t : String) (raws : List String) :
    (ofString s).Canonical ∧
      (ofString (ofString s).dotted = ofString s ∧ ofString (ofString s).internal = ofString s) ∧
      (ofString s = ofString t ↔ (ofString s).dotted = (ofString t).dotted) ∧
      ((ofString s < ofString t ↔
          (ofString s).internal.toUTF8.toList < (ofString t).internal.toUTF8.toList) ∧
        (ofString s < ofString t ↔
          (ofString s).dotted.toUTF8.toList < (ofString t).dotted.toUTF8.toList)) ∧
      (sort (raws.map ofString)).map dotted =
        Text.ascending (raws.map fun raw => (ofString raw).dotted) := by
  have canonical := canonical_ofString s
  have canonical' := canonical_ofString t
  refine ⟨canonical, ⟨canonical.ofString_dotted, canonical.ofString_internal⟩,
    canonical.eq_iff_dotted canonical', ⟨Text.lt_iff_bytes, ?_⟩, ?_⟩
  · rw [canonical.lt_iff_dotted canonical', Text.lt_iff_bytes]
  · have understood : ∀ name ∈ raws.map ofString, name.Canonical := by
      intro name member
      obtain ⟨raw, -, rfl⟩ := List.mem_map.mp member
      exact canonical_ofString raw
    rw [map_dotted_sort understood, List.map_map]
    rfl

end TypeName

end TypeLineage
