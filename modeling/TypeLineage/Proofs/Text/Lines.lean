import TypeLineage.Text.Lines

/-!
# The lines of a text

A line feed ends the first line of a text, and the lines of what is behind it follow. A carriage
return that stands before the line feed is no part of the line.
-/

namespace TypeLineage.Text

variable {line held rest : List Char}

theorem linesFrom_cons {c : Char} (noEnd : c ≠ '\n') :
    linesFrom held (c :: rest) = linesFrom (c :: held) rest := by
  simp [linesFrom]

/-- What has no line feed belongs to the line that is being read. -/
theorem linesFrom_append (whole : '\n' ∉ line) :
    linesFrom held (line ++ rest) = linesFrom (line.reverse ++ held) rest := by
  induction line generalizing held with
  | nil => rfl
  | cons c line ih =>
    have noEnd : c ≠ '\n' := fun same => whole (same ▸ .head _)
    rw [List.cons_append, linesFrom_cons noEnd, ih fun more => whole (.tail _ more),
      List.reverse_cons, List.append_assoc, List.singleton_append]

/-- A line feed ends the first line. -/
theorem lines_append_newline (whole : '\n' ∉ line) :
    lines (line ++ '\n' :: rest) = withoutReturn line :: lines rest := by
  rw [lines, linesFrom_append whole, List.append_nil, linesFrom, List.reverse_reverse, lines]

/-- A text without a line feed is one line, unless it is empty. -/
theorem lines_of_whole (whole : '\n' ∉ line) (filled : line ≠ []) : lines line = [line] := by
  have read : linesFrom [] (line ++ []) = linesFrom (line.reverse ++ []) [] :=
    linesFrom_append whole
  rw [List.append_nil, List.append_nil] at read
  rw [lines, read, linesFrom, if_neg (by simpa using filled), List.reverse_reverse]

theorem withoutReturn_append_return : withoutReturn (line ++ ['\r']) = line := by
  rw [withoutReturn, if_pos List.getLast?_concat, List.dropLast_concat]

end TypeLineage.Text
