import TypeLineage.Java.Header

/-!
# Items on the top level

A compilation unit is a sequence of items: the package, imports, declarations of types, and others
that do not matter here. An item ends with a semicolon outside of brackets, or with the brace that
closes the last open bracket. So nothing inside a body can be taken for an item.

## The model

`items` cuts the tokens of a unit into those of its items; `Item.ofTokens?` says what an item is.
The unit collects the items in their order. Of several packages the last one counts.

Texts are taken to follow the syntax. How a parser recovers from errors is left out: what does not
look like an item of interest is passed over.
-/

namespace TypeLineage.Java

/-- Cuts tokens into items, for the number of open brackets and the tokens of the current item, the
last one first. -/
def itemsFrom (depth : Nat) (current : List Token) : List Token → List (List Token)
  | [] => [current.reverse]
  | token :: rest =>
    if token.isMark '(' || token.isMark '[' || token.isMark '{' then
      itemsFrom (depth + 1) (token :: current) rest
    else if token.isMark '}' && depth ≤ 1 || token.isMark ';' && depth == 0 then
      (token :: current).reverse :: itemsFrom 0 [] rest
    else if token.isMark ')' || token.isMark ']' || token.isMark '}' then
      itemsFrom (depth - 1) (token :: current) rest
    else
      itemsFrom depth (token :: current) rest

/-- The items on the top level, each with all of its tokens. -/
def items (tokens : List Token) : List (List Token) :=
  itemsFrom 0 [] tokens

/-- The words that may stand before what a declaration declares. -/
def modifiers : List String :=
  ["public", "protected", "private", "abstract", "static", "final", "strictfp", "default",
    "synchronized", "native", "transient", "volatile", "sealed"]

/-- The tokens behind the matching parenthesis, for the number of open ones. -/
def afterParentheses : Nat → List Token → List Token
  | 0, tokens => tokens
  | _, [] => []
  | depth + 1, token :: rest =>
    if token.isMark '(' then afterParentheses (depth + 2) rest
    else if token.isMark ')' then afterParentheses depth rest
    else afterParentheses (depth + 1) rest
termination_by _ tokens => tokens.length

/-- The tokens without layout at the start. -/
def skipLayout (tokens : List Token) : List Token :=
  tokens.dropWhile Token.isLayout

/-- The tokens behind the arguments of an annotation, if it has any. -/
def afterArguments (tokens : List Token) : List Token :=
  match skipLayout tokens with
  | token :: rest => if token.isMark '(' then afterParentheses 1 rest else tokens
  | [] => []

/-- The tokens behind an annotation, when its first mark has been read. Each step takes a part of
its name, so there are no more steps than tokens. -/
def afterAnnotationName : Nat → List Token → List Token
  | 0, tokens => tokens
  | steps + 1, tokens =>
    match skipLayout tokens with
    | [] => []
    | word :: rest =>
      if word.isWord then
        match skipLayout rest with
        | point :: more => if point.isMark '.' then afterAnnotationName steps more else afterArguments rest
        | [] => []
      else word :: rest

/-- The tokens behind layout, modifiers and annotations. Each step takes one of them, so there are
no more steps than tokens. -/
def afterModifiers : Nat → List Token → List Token
  | 0, tokens => tokens
  | steps + 1, tokens =>
    match skipLayout tokens with
    | [] => []
    | token :: rest =>
      if token.isMark '@' then afterModifiers steps (afterAnnotationName rest.length rest)
      else if modifiers.any token.isTheWord then afterModifiers steps rest
      else if token.isTheWord "non" then
        match rest with
        | dash :: sealed :: more =>
          if dash.isMark '-' && sealed.isTheWord "sealed" then afterModifiers steps more
          else token :: rest
        | _ => token :: rest
      else token :: rest

/-- The text from the first word to the last one, or nothing if there is no word. -/
def dottedName (tokens : List Token) : String :=
  let tokens := tokens.dropWhile fun token => !token.isWord
  let tokens := (tokens.reverse.dropWhile fun token => !token.isWord).reverse
  String.ofList (tokens.flatMap Token.text)

/-- An item that matters. -/
inductive Item where
  /-- The package. -/
  | package (name : String)
  /-- An import of types. -/
  | imported (imported : Import)
  /-- The declaration of a type. -/
  | declared (declaration : Declaration)
  deriving DecidableEq, Repr

namespace Item

/-- An import, given what follows the keyword. Imports of members, and imports of nothing, do not
matter. -/
def ofImport? (tokens : List Token) : Option Item :=
  let isStatic := ((skipLayout tokens).head?.map (·.isTheWord "static")).getD false
  let path := dottedName tokens
  if isStatic || path.isEmpty then none
  else some (.imported { path, onDemand := tokens.any (·.isMark '*') })

/-- The declaration of a type, given its kind and what follows the keyword. -/
def ofDeclaration? (kind : TypeKind) (tokens : List Token) : Option Item :=
  match skipLayout tokens with
  | name :: rest =>
    if name.isWord then some (.declared (.ofHeader kind (String.ofList name.text) rest)) else none
  | [] => none

/-- Whether type parameters or components come next, as they do behind the name of a record. -/
def isRecordHeader (tokens : List Token) : Bool :=
  match skipLayout ((skipLayout tokens).drop 1) with
  | token :: _ => token.isMark '(' || token.isMark '<'
  | [] => false

/-- What an item is, if it matters. -/
def ofTokens? (tokens : List Token) : Option Item :=
  match afterModifiers tokens.length tokens with
  | [] => none
  | token :: rest =>
    if token.kind = .annotationType then ofDeclaration? .annotationType rest
    else if token.isTheWord "package" then some (.package (dottedName rest))
    else if token.isTheWord "import" then ofImport? rest
    else if token.isTheWord "class" then ofDeclaration? .class rest
    else if token.isTheWord "interface" then ofDeclaration? .interface rest
    else if token.isTheWord "enum" then ofDeclaration? .enumeration rest
    else if token.isTheWord "record" && isRecordHeader rest then ofDeclaration? .record rest
    else none

end Item

namespace Unit

/-- The unit with one more item. -/
def add (unit : Unit) : Item → Unit
  | .package name => { unit with package := name }
  | .imported imported => { unit with imports := unit.imports ++ [imported] }
  | .declared declaration => { unit with declarations := unit.declarations ++ [declaration] }

/-- The unit of some items. -/
def ofItems (items : List Item) : Unit :=
  items.foldl add {}

/-- The mark of byte order that may start a text. -/
def byteOrderMark : Char := '\uFEFF'

/-- A text without a mark of byte order at the start. -/
def withoutMark (text : List Char) : List Char :=
  if text.head? = some byteOrderMark then text.tail else text

/-- The unit that a source text holds; none if the text is blank. -/
def ofText? (source : String) : Option Unit :=
  if Text.allBlank source.toList then none
  else some (ofItems ((items (tokens (withoutMark source.toList))).filterMap Item.ofTokens?))

end Unit

end TypeLineage.Java
