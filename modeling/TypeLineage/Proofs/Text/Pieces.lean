import TypeLineage.Text.Split
import Mathlib.Data.List.Count
import Mathlib.Logic.Function.Basic

/-!
# Pieces of a text

What the pieces between separators are, for a text that is put together. The pieces tell the text, so
two texts are the same if they are cut into the same pieces.
-/

namespace TypeLineage.Text

theorem splitOn_cons_self (separator : Char) (text : List Char) :
    splitOn separator (separator :: text) = [] :: splitOn separator text := by
  simp [splitOn]

theorem splitOn_cons_of_ne {separator c : Char} (other : c ≠ separator) {text piece : List Char}
    {pieces : List (List Char)} (h : splitOn separator text = piece :: pieces) :
    splitOn separator (c :: text) = (c :: piece) :: pieces := by
  simp [splitOn, other, h]

/-- A text is cut at a separator into the pieces before and those behind. -/
theorem splitOn_append (separator : Char) (before behind : List Char) :
    splitOn separator (before ++ separator :: behind) =
      splitOn separator before ++ splitOn separator behind := by
  induction before with
  | nil => exact splitOn_cons_self separator behind
  | cons c rest ih =>
    by_cases same : c = separator
    · rw [same, List.cons_append, splitOn_cons_self, splitOn_cons_self, ih, List.cons_append]
    · obtain ⟨piece, pieces, h⟩ := List.exists_cons_of_ne_nil (splitOn_ne_nil separator rest)
      rw [h, List.cons_append] at ih
      rw [List.cons_append, splitOn_cons_of_ne same ih, splitOn_cons_of_ne same h,
        List.cons_append]

/-- The first piece goes up to the first separator. -/
theorem head?_splitOn (separator : Char) (text : List Char) :
    (splitOn separator text).head? = some (text.takeWhile (· != separator)) := by
  induction text with
  | nil => rfl
  | cons c rest ih =>
    by_cases same : c = separator
    · simp [same, splitOn_cons_self]
    · obtain ⟨piece, pieces, h⟩ := List.exists_cons_of_ne_nil (splitOn_ne_nil separator rest)
      rw [h, List.head?_cons, Option.some.injEq] at ih
      rw [splitOn_cons_of_ne same h, List.head?_cons, List.takeWhile_cons_of_pos (by simp [same]), ih]

/-- A text without separators is one piece. -/
theorem splitOn_of_not_mem {separator : Char} {text : List Char} (whole : separator ∉ text) :
    splitOn separator text = [text] := by
  induction text with
  | nil => rfl
  | cons c rest ih =>
    rw [List.mem_cons, not_or] at whole
    exact splitOn_cons_of_ne (Ne.symm whole.1) (ih whole.2)

/-- An ending without separators goes to the last piece. -/
theorem splitOn_append_of_not_mem {separator : Char} {ending : List Char}
    (whole : separator ∉ ending) (text : List Char) :
    splitOn separator (text ++ ending) =
      (splitOn separator text).dropLast ++
        [(splitOn separator text).getLast (splitOn_ne_nil separator text) ++ ending] := by
  induction text with
  | nil => exact splitOn_of_not_mem whole
  | cons c rest ih =>
    obtain ⟨piece, pieces, cut⟩ := List.exists_cons_of_ne_nil (splitOn_ne_nil separator rest)
    by_cases same : c = separator
    · simp only [same, List.cons_append, splitOn_cons_self, ih]
      rw [List.dropLast_cons_of_ne_nil (splitOn_ne_nil separator rest),
        List.getLast_cons (splitOn_ne_nil separator rest), List.cons_append]
    · simp only [cut] at ih
      simp only [List.cons_append, splitOn_cons_of_ne same cut]
      cases pieces with
      | nil => exact splitOn_cons_of_ne same ih
      | cons next more => exact splitOn_cons_of_ne same ih

/-- The pieces are made of characters of the text. -/
theorem mem_of_mem_splitOn {separator : Char} {text piece : List Char} {c : Char}
    (member : piece ∈ splitOn separator text) (inside : c ∈ piece) : c ∈ text := by
  induction text generalizing piece with
  | nil =>
    rw [splitOn, List.mem_singleton] at member
    rw [member] at inside
    cases inside
  | cons d rest ih =>
    by_cases same : d = separator
    · rw [same, splitOn_cons_self, List.mem_cons] at member
      rcases member with rfl | member
      · cases inside
      · exact List.mem_cons_of_mem _ (ih member inside)
    · obtain ⟨first, pieces, cut⟩ := List.exists_cons_of_ne_nil (splitOn_ne_nil separator rest)
      rw [splitOn_cons_of_ne same cut, List.mem_cons] at member
      rcases member with rfl | member
      · rcases List.mem_cons.mp inside with rfl | inside
        · exact List.mem_cons_self
        · exact List.mem_cons_of_mem _ (ih (cut ▸ List.mem_cons_self) inside)
      · exact List.mem_cons_of_mem _ (ih (cut ▸ List.mem_cons_of_mem _ member) inside)

/-- The pieces hold all but the separators. -/
theorem flatten_splitOn (separator : Char) (text : List Char) :
    (splitOn separator text).flatten = text.filter (· != separator) := by
  induction text with
  | nil => rfl
  | cons c rest ih =>
    by_cases same : c = separator
    · rw [same, splitOn_cons_self, List.flatten_cons, List.nil_append, ih,
        List.filter_cons_of_neg (by simp)]
    · obtain ⟨piece, pieces, cut⟩ := List.exists_cons_of_ne_nil (splitOn_ne_nil separator rest)
      rw [cut, List.flatten_cons] at ih
      rw [splitOn_cons_of_ne same cut, List.flatten_cons, List.cons_append, ih,
        List.filter_cons_of_pos (by simpa using same)]

/-- There is one piece more than there are separators. -/
theorem length_splitOn (separator : Char) (text : List Char) :
    (splitOn separator text).length = text.count separator + 1 := by
  induction text with
  | nil => rfl
  | cons c rest ih =>
    by_cases same : c = separator
    · rw [same, splitOn_cons_self, List.length_cons, ih, List.count_cons_self]
    · obtain ⟨piece, pieces, cut⟩ := List.exists_cons_of_ne_nil (splitOn_ne_nil separator rest)
      rw [cut, List.length_cons] at ih
      rw [splitOn_cons_of_ne same cut, List.length_cons, ih, List.count_cons_of_ne same]

theorem splitOn_injective (separator : Char) : Function.Injective (splitOn separator) := by
  intro text other same
  rw [← join_splitOn separator text, same, join_splitOn]

/-- Before the first separator there is the first piece. -/
theorem append_cons_inj {separator : Char} {first other rest more : List Char}
    (whole : separator ∉ first) (whole' : separator ∉ other)
    (same : first ++ separator :: rest = other ++ separator :: more) :
    first = other ∧ rest = more := by
  have cut := congrArg (splitOn separator) same
  rw [splitOn_append, splitOn_append, splitOn_of_not_mem whole, splitOn_of_not_mem whole'] at cut
  obtain ⟨front, back⟩ := List.cons.inj cut
  exact ⟨front, splitOn_injective separator back⟩

/-! ### Texts put together -/

theorem map_join (f : Char → Char) (separator : Char) (texts : List (List Char)) :
    (join [separator] texts).map f = join [f separator] (texts.map (List.map f)) := by
  induction texts with
  | nil => rfl
  | cons text rest ih =>
    cases rest with
    | nil => rfl
    | cons next more => simpa [join] using ih

theorem mem_join {separator : List Char} {c : Char} {texts : List (List Char)}
    (member : c ∈ join separator texts) : c ∈ separator ∨ ∃ text ∈ texts, c ∈ text := by
  induction texts with
  | nil => cases member
  | cons text rest ih =>
    cases rest with
    | nil => exact .inr ⟨text, List.mem_singleton_self text, member⟩
    | cons next more =>
      simp only [join, List.append_assoc, List.mem_append] at member
      rcases member with first | between | behind
      · exact .inr ⟨text, List.mem_cons_self, first⟩
      · exact .inl between
      · refine (ih behind).imp_right ?_
        rintro ⟨other, inside, found⟩
        exact ⟨other, List.mem_cons_of_mem text inside, found⟩

theorem join_append {separator : List Char} {front back : List (List Char)} (some : front ≠ [])
    (more : back ≠ []) :
    join separator (front ++ back) = join separator front ++ separator ++ join separator back := by
  induction front with
  | nil => exact absurd rfl some
  | cons text rest ih =>
    cases rest with
    | nil =>
      obtain ⟨next, others, rfl⟩ := List.exists_cons_of_ne_nil more
      simp [join]
    | cons next others => simpa [join] using ih (List.cons_ne_nil next others)

end TypeLineage.Text
