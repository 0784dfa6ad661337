/-!
# White space

The characters that stand for nothing but space, and the two things the library does with them:
cutting them off both ends of a text, and asking whether a text holds anything else.

Main statements: the ends of a trimmed text are not blank (`isBlank_head_trim`,
`isBlank_getLast_trim`).
-/

namespace TypeLineage.Text

/-- The characters with the Unicode property `White_Space`. -/
def isBlank (c : Char) : Bool :=
  let n := c.toNat
  (0x09 ≤ n && n ≤ 0x0D) || n == 0x20 || n == 0x85 || n == 0xA0 || n == 0x1680 ||
    (0x2000 ≤ n && n ≤ 0x200A) || n == 0x2028 || n == 0x2029 || n == 0x202F || n == 0x205F ||
    n == 0x3000

/-- A text without the blanks at its end. -/
def trimEnd (text : List Char) : List Char :=
  (text.reverse.dropWhile isBlank).reverse

/-- A text without the blanks at its two ends. -/
def trim (text : List Char) : List Char :=
  trimEnd (text.dropWhile isBlank)

/-- Whether a text holds nothing but blanks. -/
def allBlank (text : List Char) : Bool :=
  text.all isBlank

/-! ### What trimming leaves -/

/-- The first character of what `dropWhile` leaves fails its test. -/
theorem head_dropWhile_not {α : Type} {p : α → Bool} {xs : List α} {x : α}
    (h : (xs.dropWhile p).head? = some x) : p x = false := by
  induction xs with
  | nil => simp at h
  | cons y ys ih =>
    by_cases hy : p y
    · rw [List.dropWhile_cons_of_pos hy] at h
      exact ih h
    · rw [List.dropWhile_cons_of_neg hy] at h
      simp only [List.head?_cons, Option.some.injEq] at h
      subst h
      simpa using hy

/-- Cutting blanks off the end leaves a text that starts as before, or nothing. -/
theorem head?_trimEnd {text : List Char} {c : Char} (h : (trimEnd text).head? = some c) :
    text.head? = some c := by
  have hp : trimEnd text <+: text := by
    have hs := List.dropWhile_suffix (l := text.reverse) isBlank
    have := List.reverse_prefix.mpr hs
    simpa [trimEnd] using this
  obtain ⟨rest, hr⟩ := hp
  rw [← hr]
  cases ht : trimEnd text with
  | nil => simp [ht] at h
  | cons d ds => simpa [ht] using h

/-- A trimmed text does not start with a blank. -/
theorem isBlank_head_trim {text : List Char} {c : Char} (h : (trim text).head? = some c) :
    isBlank c = false :=
  head_dropWhile_not (head?_trimEnd h)

/-- A trimmed text does not end with a blank. -/
theorem isBlank_getLast_trim {text : List Char} {c : Char} (h : (trim text).getLast? = some c) :
    isBlank c = false := by
  rw [trim, trimEnd, List.getLast?_reverse] at h
  exact head_dropWhile_not h

end TypeLineage.Text
