import TypeLineage.Text.Hidden

/-!
# Quoted text

A text between double quotes, so that it can be told where it ends and what it holds: quotes and
backslashes are written behind a backslash, and so are zero and the characters that move the place
of writing, by a letter or digit of their own. Other characters that are not shown are written by
their numbers.
-/

namespace TypeLineage.Text

/-- The digits of a number to base sixteen. -/
def hex (n : Nat) : List Char :=
  Nat.toDigits 16 n

/-- A character written by its number. -/
def byNumber (c : Char) : List Char :=
  ['\\', 'u', '{'] ++ hex c.toNat ++ ['}']

/-- How a character is written between quotes. -/
def quotedChar (c : Char) : List Char :=
  if c = '\x00' then ['\\', '0']
  else if c = '\t' then ['\\', 't']
  else if c = '\r' then ['\\', 'r']
  else if c = '\n' then ['\\', 'n']
  else if c = '\\' ∨ c = '"' then ['\\', c]
  else if isHidden c then byNumber c
  else [c]

/-- A text between quotes. -/
def quoted (text : String) : String :=
  String.ofList ('"' :: (text.toList.flatMap quotedChar ++ ['"']))

end TypeLineage.Text
