import TypeLineage.Text.Blank

/-!
# Java tokens

A source text cut into tokens. Layout, which is blanks and comments, makes tokens of its own, so
that nothing of the text is lost: the texts of the tokens one after the other are the source text
(`flatMap_text_tokens`).

## The model

The first character of a token, with the few behind it, decides on its kind, and the kind on how far
it goes. Words are names, keywords and numbers alike. A string may hold expressions, which may hold
strings again; a stack of `Frame`s tells what a place in a string literal belongs to. Every other
character that is neither layout nor part of a word is a mark of its own.

Left out is which characters beyond ASCII a name may have: all but blanks can stand in a word. Left
out are also comments and the literals of characters in an expression within a string: a quote or a
brace in them counts as one of the expression.
-/

namespace TypeLineage.Java

/-- The kinds of tokens. -/
inductive Kind where
  /-- Blanks or a comment. -/
  | layout
  /-- A name, a keyword or a number. -/
  | word
  /-- A character, a string or a text block. -/
  | literal
  /-- What starts the declaration of an annotation type. -/
  | annotationType
  /-- Any other character. -/
  | mark
  deriving DecidableEq, Repr

/-- A token. -/
structure Token where
  /-- What it is. -/
  kind : Kind
  /-- How it is written. -/
  text : List Char
  deriving DecidableEq, Repr

namespace Token

/-- Whether a token is blanks or a comment. -/
def isLayout (token : Token) : Bool :=
  token.kind == .layout

/-- Whether a token is a word. -/
def isWord (token : Token) : Bool :=
  token.kind == .word

/-- Whether a token is a certain word. -/
def isTheWord (token : Token) (word : String) : Bool :=
  token.isWord && token.text == word.toList

/-- Whether a token is a certain mark. -/
def isMark (token : Token) (mark : Char) : Bool :=
  token.kind == .mark && token.text == [mark]

end Token

/-- Whether a character can stand in a word. -/
def isWordChar (c : Char) : Bool :=
  c.isAlphanum || c == '_' || c == '$' || (0x80 ≤ c.toNat && !Text.isBlank c)

/-! ### How far a token goes -/

/-- The length of a comment up to its end mark, when it has been entered. -/
def commentLength : List Char → Nat
  | [] => 0
  | '*' :: '/' :: _ => 2
  | _ :: rest => 1 + commentLength rest

/-- The length of a character literal behind its first quote. -/
def characterLength : List Char → Nat
  | [] => 0
  | '\'' :: _ => 1
  | '\\' :: _ :: rest => 2 + characterLength rest
  | _ :: rest => 1 + characterLength rest

/-- What a place within a string literal belongs to. -/
inductive Frame where
  /-- The text of a string. -/
  | string
  /-- The text of a text block. -/
  | block
  /-- An expression with so many open braces. -/
  | expression (braces : Nat)
  deriving DecidableEq, Repr

/-- The length of the rest of a string literal, for the frames that have been entered. -/
def stringLength : List Frame → List Char → Nat
  | [], _ => 0
  | _ :: _, [] => 0
  | .expression braces :: frames, '"' :: '"' :: '"' :: rest =>
    3 + stringLength (.block :: .expression braces :: frames) rest
  | .expression braces :: frames, c :: rest =>
    1 + stringLength
      (if c = '"' then .string :: .expression braces :: frames
        else if c = '{' then .expression (braces + 1) :: frames
        else if c = '}' then
          match braces with
          | 0 => frames
          | braces + 1 => .expression braces :: frames
        else .expression braces :: frames) rest
  | frame :: frames, '\\' :: c :: rest =>
    2 + stringLength (if c = '{' then .expression 0 :: frame :: frames else frame :: frames) rest
  | .block :: frames, '"' :: '"' :: '"' :: rest => 3 + stringLength frames rest
  | .string :: frames, '"' :: rest => 1 + stringLength frames rest
  | frame :: frames, _ :: rest => 1 + stringLength (frame :: frames) rest

/-- The kind of the token that starts with a character, and how many characters of the rest belong
to it. -/
def extent (first : Char) (rest : List Char) : Kind × Nat :=
  match first, rest with
  | '/', '/' :: more => (.layout, 1 + (more.takeWhile (· != '\n')).length)
  | '/', '*' :: more => (.layout, 1 + commentLength more)
  | '"', '"' :: '"' :: more => (.literal, 2 + stringLength [.block] more)
  | '"', more => (.literal, stringLength [.string] more)
  | '\'', more => (.literal, characterLength more)
  | '@', more =>
    if "interface".toList.isPrefixOf more then (.annotationType, "interface".length) else (.mark, 0)
  | c, more =>
    if Text.isBlank c then (.layout, (more.takeWhile Text.isBlank).length)
    else if isWordChar c then (.word, (more.takeWhile isWordChar).length)
    else (.mark, 0)

/-- The tokens of a text. -/
def tokens : List Char → List Token
  | [] => []
  | first :: rest =>
    let (kind, count) := extent first rest
    ⟨kind, first :: rest.take count⟩ :: tokens (rest.drop count)
termination_by text => text.length
decreasing_by simp only [List.length_drop, List.length_cons]; omega

/-- The texts of the tokens one after the other are the text. -/
theorem flatMap_text_tokens (text : List Char) : (tokens text).flatMap Token.text = text := by
  induction text using tokens.induct with
  | case1 => simp [tokens]
  | case2 first rest kind count h ih =>
    rw [tokens]
    simp [h, ih]

end TypeLineage.Java
