/-!
# Pieces between separators

A text cut at every occurrence of one character. Main statement: the pieces with the separator put
back between them are the text again (`join_splitOn`).
-/

namespace TypeLineage.Text

/-- The pieces between the separators; there is one more of them than of separators. -/
def splitOn (separator : Char) : List Char → List (List Char)
  | [] => [[]]
  | c :: rest =>
    if c = separator then [] :: splitOn separator rest
    else
      match splitOn separator rest with
      | [] => [[c]]
      | piece :: pieces => (c :: piece) :: pieces

/-- Texts with a separator put between neighbours. -/
def join (separator : List Char) : List (List Char) → List Char
  | [] => []
  | [text] => text
  | text :: rest => text ++ separator ++ join separator rest

/-- There is always a first piece. -/
theorem splitOn_ne_nil (separator : Char) (text : List Char) : splitOn separator text ≠ [] := by
  cases text with
  | nil => simp [splitOn]
  | cons c rest =>
    simp only [splitOn]
    split
    · simp
    · split <;> simp

/-- Cutting loses nothing but the separators, and these are known. -/
theorem join_splitOn (separator : Char) (text : List Char) :
    join [separator] (splitOn separator text) = text := by
  induction text with
  | nil => rfl
  | cons c rest ih =>
    obtain ⟨piece, pieces, h⟩ := List.exists_cons_of_ne_nil (splitOn_ne_nil separator rest)
    rw [h] at ih
    by_cases hc : c = separator
    · simp [splitOn, hc, h, join, ih]
    · cases pieces with
      | nil => simpa [splitOn, hc, h, join] using ih
      | cons next more => simpa [splitOn, hc, h, join] using ih

end TypeLineage.Text
