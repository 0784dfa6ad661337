/-!
# Lines

A text cut into its lines. A line ends with a line feed, with a carriage return before it counted
in; what follows the last line feed is a line too unless it is empty.
-/

namespace TypeLineage.Text

/-- A line as read, without the carriage return that stood before its line feed. -/
def withoutReturn (line : List Char) : List Char :=
  if line.getLast? = some '\r' then line.dropLast else line

/-- The lines of a text, when `line` holds, in reverse, what has been read of the first. -/
def linesFrom (line : List Char) : List Char → List (List Char)
  | [] => if line.isEmpty then [] else [line.reverse]
  | '\n' :: rest => withoutReturn line.reverse :: linesFrom [] rest
  | c :: rest => linesFrom (c :: line) rest

/-- The lines of a text. -/
def lines (text : List Char) : List (List Char) :=
  linesFrom [] text

end TypeLineage.Text
