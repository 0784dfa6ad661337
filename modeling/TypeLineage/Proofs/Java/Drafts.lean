import TypeLineage.Proofs.Java.Extraction

/-!
# Writing units

A draft is what a unit is written from: the package, imports of types and of members, and
declarations of types with empty bodies, type parameters and type arguments (`Draft`). What is read
from the text of a draft is the unit that was meant, without the imports of members, the type
parameters and the type arguments (`Unit.ofText?_source`). Of an empty draft there is no text, and
nothing is read from it.
-/

namespace TypeLineage.Java

/-- The words that can be no names. -/
def keywords : List String :=
  ["abstract", "assert", "boolean", "break", "byte", "case", "catch", "char", "class", "const",
    "continue", "default", "do", "double", "else", "enum", "extends", "final", "finally", "float",
    "for", "goto", "if", "implements", "import", "instanceof", "int", "interface", "long", "native",
    "new", "package", "private", "protected", "public", "return", "short", "static", "strictfp",
    "super", "switch", "synchronized", "this", "throw", "throws", "transient", "try", "void",
    "volatile", "while", "_", "true", "false", "null"]

/-- A word that can be a name. -/
structure Identifier where
  /-- How it is written. -/
  text : String
  chars : text.toList.all isWordChar = true
  start : ∃ c, text.toList.head? = some c ∧ c.isDigit = false
  notKeyword : text ∉ keywords

/-- Identifiers with points between them. -/
structure DottedName where
  /-- The identifiers. -/
  parts : List Identifier
  nonempty : parts ≠ []

/-- Type parameters or type arguments with their brackets, or nothing. -/
structure AngledText where
  /-- How they are written. -/
  text : String
  angled : text = "" ∨
    ∃ inside, tokens text.toList = .ofMark '<' :: (inside ++ [.ofMark '>']) ∧ Angled inside

/-- A supertype. -/
structure TypeDraft where
  /-- Its name. -/
  name : DottedName
  /-- Its type arguments. -/
  arguments : AngledText

/-- An import. -/
structure ImportDraft where
  /-- Whether members of a type are imported. -/
  isStatic : Bool
  /-- The name. -/
  name : DottedName
  /-- Whether there is a star. -/
  onDemand : Bool

/-- The declaration of a type. -/
structure DeclarationDraft where
  /-- What it is. -/
  kind : TypeKind
  /-- Its name. -/
  name : Identifier
  /-- Its type parameters. -/
  parameters : AngledText
  /-- The superclass. -/
  superclass : Option TypeDraft
  /-- The interfaces. -/
  interfaces : List TypeDraft
  superclass_ok : superclass ≠ none → kind = .class
  interfaces_ok : kind = .annotationType → interfaces = []

/-- What a unit is written from. -/
structure Draft where
  /-- The package. -/
  package : Option DottedName
  /-- The imports. -/
  imports : List ImportDraft
  /-- The declarations. -/
  declarations : List DeclarationDraft

/-! ### Texts -/

/-- Identifiers with points between them. -/
def dotted : List Identifier → List Char
  | [] => []
  | [part] => part.text.toList
  | part :: parts => part.text.toList ++ '.' :: dotted parts

/-- The text of a name. -/
def DottedName.text (name : DottedName) : List Char :=
  dotted name.parts

/-- The text of a supertype. -/
def TypeDraft.text (type : TypeDraft) : List Char :=
  type.name.text ++ type.arguments.text.toList

/-- The text of some types, each with a blank before it, and a blank at the end. -/
def listed : List TypeDraft → List Char
  | [] => []
  | [type] => ' ' :: (type.text ++ [' '])
  | type :: types => ' ' :: (type.text ++ ',' :: listed types)

/-- The text behind the name in an import. -/
def importEnding (onDemand : Bool) : List Char :=
  if onDemand then ['.', '*', ';'] else [';']

/-- The text of an import. -/
def ImportDraft.text (draft : ImportDraft) : List Char :=
  if draft.isStatic then
    "import".toList ++ ' ' :: ("static".toList ++ ' ' ::
      (draft.name.text ++ importEnding draft.onDemand))
  else "import".toList ++ ' ' :: (draft.name.text ++ importEnding draft.onDemand)

/-- The text of the package. -/
def packageText (name : DottedName) : List Char :=
  "package".toList ++ ' ' :: (name.text ++ [';'])

/-- The text of a clause, if there are types in it. -/
def clauseText (keyword : String) (types : List TypeDraft) : List Char :=
  if types = [] then [] else keyword.toList ++ listed types

/-- The text of a declaration. -/
def DeclarationDraft.text (draft : DeclarationDraft) : List Char :=
  draft.kind.start.text ++ ' ' :: (draft.name.text.toList ++ (draft.parameters.text.toList ++
    ((if draft.kind = .record then ['(', ')'] else []) ++ ' ' ::
      (clauseText "extends" draft.superclass.toList ++
        (clauseText draft.kind.interfacesKeyword draft.interfaces ++ ['{', '}'])))))

/-- The lines of a draft. -/
def Draft.lines (draft : Draft) : List (List Char) :=
  draft.package.toList.map packageText ++ (draft.imports.map ImportDraft.text ++
    draft.declarations.map DeclarationDraft.text)

/-- A text of lines. -/
def unlines (lines : List (List Char)) : List Char :=
  lines.flatMap fun line => line ++ ['\n']

/-- The source text of a draft. -/
def Draft.source (draft : Draft) : String :=
  String.ofList (unlines draft.lines)

/-! ### Units -/

/-- The name of a supertype, which is all that is read of it. -/
def TypeDraft.read (type : TypeDraft) : String :=
  String.ofList type.name.text

/-- What is read of an import, unless members are imported. -/
def ImportDraft.read? (draft : ImportDraft) : Option Import :=
  if draft.isStatic then none
  else some { path := String.ofList draft.name.text, onDemand := draft.onDemand }

/-- What is read of a declaration. -/
def DeclarationDraft.read (draft : DeclarationDraft) : Declaration where
  kind := draft.kind
  name := draft.name.text
  superclass := draft.superclass.map TypeDraft.read
  interfaces := draft.interfaces.map TypeDraft.read

/-- The unit that a draft means. -/
def Draft.unit (draft : Draft) : Unit where
  package := (draft.package.map fun name => String.ofList name.text).getD ""
  imports := draft.imports.filterMap ImportDraft.read?
  declarations := draft.declarations.map DeclarationDraft.read

/-- Whether nothing is written at all. -/
def Draft.isEmpty (draft : Draft) : Bool :=
  draft.package.isNone && draft.imports.isEmpty && draft.declarations.isEmpty

/-! ### Tokens of words and blanks -/

/-- A text that does not go on with characters of some kind. -/
def Stops (p : Char → Bool) (text : List Char) : Prop :=
  ∀ c, text.head? = some c → p c = false

theorem stops_cons {p : Char → Bool} {c : Char} (other : p c = false) (rest : List Char) :
    Stops p (c :: rest) := by
  simpa [Stops] using other

theorem takeWhile_of_stops {p : Char → Bool} {text : List Char} (stops : Stops p text) :
    text.takeWhile p = [] := by
  cases text with
  | nil => rfl
  | cons c rest => simp [stops c rfl]

theorem isWordChar_special {c : Char} (word : isWordChar c = true) :
    c ∉ ['/', '"', '\'', '@'] := by
  simp only [List.mem_cons, List.not_mem_nil, or_false]
  rintro (rfl | rfl | rfl | rfl) <;> exact absurd word (by decide)

/-- A text that is one word. -/
def IsWord (text : List Char) : Prop :=
  text ≠ [] ∧ text.all isWordChar = true

instance : DecidablePred IsWord := fun text =>
  inferInstanceAs (Decidable (text ≠ [] ∧ text.all isWordChar = true))

theorem tokens_word {word : List Char} (isWord : IsWord word) {rest : List Char}
    (stops : Stops isWordChar rest) :
    tokens (word ++ rest) = ⟨.word, word⟩ :: tokens rest := by
  obtain ⟨first, others, rfl⟩ := List.exists_cons_of_ne_nil isWord.1
  obtain ⟨start, chars⟩ := List.forall_mem_cons.mp (List.all_eq_true.mp isWord.2)
  have long : ((others ++ rest).takeWhile isWordChar) = others := by
    rw [List.takeWhile_append_of_pos chars, takeWhile_of_stops stops, List.append_nil]
  rw [List.cons_append, tokens_cons, extent_other (isWordChar_special start), start,
    isBlank_of_isWordChar start]
  simp [long]

/-- A word does not start with a blank. -/
theorem stops_isBlank_word {word : List Char} (isWord : IsWord word) (rest : List Char) :
    Stops Text.isBlank (word ++ rest) := by
  obtain ⟨first, others, rfl⟩ := List.exists_cons_of_ne_nil isWord.1
  have start : isWordChar first = true := List.all_eq_true.mp isWord.2 first (by simp)
  exact stops_cons (isBlank_of_isWordChar start) _

theorem tokens_blank {c : Char} (blank : Text.isBlank c = true) {rest : List Char}
    (stops : Stops Text.isBlank rest) : tokens (c :: rest) = .ofBlank c :: tokens rest := by
  rw [tokens_cons, extent_of_isBlank blank, takeWhile_of_stops stops]
  rfl

/-! ### Tokens of names -/

theorem Identifier.isWord (name : Identifier) : IsWord name.text.toList := by
  obtain ⟨c, start, _⟩ := name.start
  exact ⟨fun none => by simp [none] at start, name.chars⟩

theorem Identifier.stops_isBlank (name : Identifier) (rest : List Char) :
    Stops Text.isBlank (name.text.toList ++ rest) :=
  stops_isBlank_word name.isWord rest

theorem Identifier.tokens_append (name : Identifier) {rest : List Char}
    (stops : Stops isWordChar rest) :
    tokens (name.text.toList ++ rest) = .ofWord name.text :: tokens rest :=
  tokens_word name.isWord stops

/-- The tokens of identifiers with points between them. -/
def dottedTokens : List Identifier → List Token
  | [] => []
  | [part] => [.ofWord part.text]
  | part :: parts => .ofWord part.text :: .ofMark '.' :: dottedTokens parts

theorem tokens_dotted {parts : List Identifier} {rest : List Char}
    (stops : Stops isWordChar rest) :
    tokens (dotted parts ++ rest) = dottedTokens parts ++ tokens rest := by
  induction parts with
  | nil => rfl
  | cons part parts ih =>
    cases parts with
    | nil => exact part.tokens_append stops
    | cons next parts =>
      rw [dotted, List.append_assoc, List.cons_append,
        part.tokens_append (stops_cons (by decide) _), tokens_alone (by decide), ih]
      · rfl
      · simp

theorem qualifiedName_dottedTokens {parts : List Identifier} (some : parts ≠ []) :
    QualifiedName (dottedTokens parts) := by
  induction parts with
  | nil => exact absurd rfl some
  | cons part parts ih =>
    cases parts with
    | nil => exact .word (by simp)
    | cons next parts => exact .qualified (by simp) gap_nil gap_nil (ih (by simp))

theorem flatMap_text_dottedTokens (parts : List Identifier) :
    (dottedTokens parts).flatMap Token.text = dotted parts := by
  induction parts with
  | nil => rfl
  | cons part parts ih =>
    cases parts with
    | nil => simp [dottedTokens, dotted, Token.ofWord]
    | cons next parts =>
      rw [dottedTokens, dotted, List.flatMap_cons, List.flatMap_cons, ih]
      · rfl
      · simp
      · simp

/-- Names have nothing that is left out. -/
theorem bare_dotted (parts : List Identifier) (back : List Char) :
    bare (dotted parts ++ back) = dotted parts ++ bare back := by
  induction parts with
  | nil => rfl
  | cons part parts ih =>
    cases parts with
    | nil => exact bare_append_of_word (List.all_eq_true.mp part.chars) back
    | cons next parts =>
      rw [dotted, List.append_assoc, List.cons_append,
        bare_append_of_word (List.all_eq_true.mp part.chars), bare_cons (by decide) (by decide), ih]
      · simp
      · simp

namespace DottedName

variable (name : DottedName)

/-- The tokens of a name. -/
def tokens : List Token :=
  dottedTokens name.parts

theorem tokens_append {rest : List Char} (stops : Stops isWordChar rest) :
    Java.tokens (name.text ++ rest) = name.tokens ++ Java.tokens rest :=
  tokens_dotted stops

theorem qualifiedName : QualifiedName name.tokens :=
  qualifiedName_dottedTokens name.nonempty

theorem textOf_tokens : textOf name.tokens = String.ofList name.text := by
  rw [textOf, tokens, flatMap_text_dottedTokens, text]

theorem exists_parts : ∃ part parts, name.parts = part :: parts :=
  List.exists_cons_of_ne_nil name.nonempty

theorem stops_isBlank (rest : List Char) : Stops Text.isBlank (name.text ++ rest) := by
  obtain ⟨part, parts, whole⟩ := name.exists_parts
  rw [text, whole]
  cases parts with
  | nil => exact part.stops_isBlank rest
  | cons next parts =>
    rw [dotted, List.append_assoc]
    · exact part.stops_isBlank _
    · simp

end DottedName

/-! ### Tokens of types -/

namespace AngledText

variable (angled : AngledText)

theorem closed : Closed (tokens angled.text.toList) := by
  rcases angled.angled with none | ⟨inside, written, _⟩
  · simpa [none, tokens] using Closed.nil
  · rw [written]
    exact @Closed.mark (.ofMark '<' :: inside) '>' (by decide)

theorem tokens_append (rest : List Char) :
    tokens (angled.text.toList ++ rest) = tokens angled.text.toList ++ tokens rest :=
  angled.closed.tokens_text_append rest

/-- Type arguments start with a bracket. -/
theorem text_eq : angled.text = "" ∨ ∃ rest, angled.text.toList = '<' :: rest := by
  refine angled.angled.imp_right fun ⟨inside, written, _⟩ => ?_
  rw [← flatMap_text_tokens angled.text.toList, written]
  exact ⟨_, rfl⟩

theorem stops_isWordChar {rest : List Char} (stops : Stops isWordChar rest) :
    Stops isWordChar (angled.text.toList ++ rest) := by
  rcases angled.text_eq with none | ⟨others, start⟩
  · simpa [none] using stops
  · rw [start]
    exact stops_cons (by decide) _

theorem typeArguments {behind : List Token} (gap : Gap behind) :
    TypeArguments (tokens angled.text.toList ++ behind) := by
  rcases angled.angled with none | ⟨inside, written, ok⟩
  · simpa [none, tokens] using TypeArguments.none gap
  · rw [written]
    simpa using TypeArguments.list gap_nil ok gap

end AngledText

namespace TypeDraft

variable (type : TypeDraft)

/-- The tokens of a supertype. -/
def tokens : List Token :=
  type.name.tokens ++ Java.tokens type.arguments.text.toList

theorem tokens_append {rest : List Char} (stops : Stops isWordChar rest) :
    Java.tokens (type.text ++ rest) = type.tokens ++ Java.tokens rest := by
  rw [text, List.append_assoc,
    type.name.tokens_append (type.arguments.stops_isWordChar stops),
    type.arguments.tokens_append, tokens, List.append_assoc]

/-- The segments of a name with type arguments at its end. -/
theorem exists_written {parts : List Identifier} (some : parts ≠ []) (arguments : AngledText) :
    ∃ segments, Written segments
      (dottedTokens parts ++ Java.tokens arguments.text.toList) := by
  induction parts with
  | nil => exact absurd rfl some
  | cons part parts ih =>
    cases parts with
    | nil =>
      have ok : TypeArguments (Java.tokens arguments.text.toList) := by
        simpa using arguments.typeArguments gap_nil
      refine ⟨[⟨[], .ofWord part.text, _, .nil, by simp, ok⟩], ?_⟩
      simpa [Segment.tokens, dottedTokens] using
        Written.last ⟨[], .ofWord part.text, _, .nil, by simp, ok⟩ (.none gap_nil)
    | cons next parts =>
      obtain ⟨segments, written⟩ := ih (by simp)
      exact ⟨_, .qualified ⟨[], .ofWord part.text, [], .nil, by simp, .none gap_nil⟩ written⟩

theorem spaced {before behind : List Token} (first : Gap before) (last : Gap behind) :
    Spaced type.tokens (before ++ (type.tokens ++ behind)) := by
  obtain ⟨segments, written⟩ := exists_written type.name.nonempty type.arguments
  exact .written first written last

theorem flatMap_text_tokens :
    type.tokens.flatMap Token.text = type.name.text ++ type.arguments.text.toList := by
  rw [tokens, List.flatMap_append, Java.flatMap_text_tokens, DottedName.tokens,
    flatMap_text_dottedTokens, DottedName.text]

theorem bare_text : bare (type.name.text ++ type.arguments.text.toList) = type.name.text := by
  rcases type.arguments.text_eq with none | ⟨rest, start⟩
  · simpa [none, bare, DottedName.text] using bare_dotted type.name.parts []
  · rw [start, DottedName.text, bare_dotted, bare_less, List.append_nil]

/-- Of a supertype its name is read. -/
theorem writtenType_tokens : writtenType type.tokens = type.read := by
  obtain ⟨first, rest, start, isWord⟩ := type.name.qualifiedName.exists_cons
  obtain ⟨init, last, finish, visible⟩ : ∃ init last, type.tokens = init ++ [last] ∧
      last.isLayout = false := by
    rcases type.arguments.angled with none | ⟨inside, written, _⟩
    · obtain ⟨init, last, finish, isWord⟩ := type.name.qualifiedName.exists_concat
      refine ⟨init, last, ?_, Token.isLayout_of_isWord isWord⟩
      simpa [tokens, none, Java.tokens] using finish
    · refine ⟨type.name.tokens ++ .ofMark '<' :: inside, .ofMark '>', ?_, by simp⟩
      simp [tokens, written]
  have started : type.tokens = first :: (rest ++ Java.tokens type.arguments.text.toList) := by
    rw [tokens, start, List.cons_append]
  rw [writtenType_of_ends started (Token.isLayout_of_isWord isWord) finish visible,
    type.flatMap_text_tokens, type.bare_text, read]

theorem stops_isBlank (rest : List Char) : Stops Text.isBlank (type.text ++ rest) := by
  rw [text, List.append_assoc]
  exact type.name.stops_isBlank _

end TypeDraft

/-- The tokens of some types, each with a blank before it, and a blank at the end. -/
def listedTokens : List TypeDraft → List Token
  | [] => []
  | [type] => [.ofBlank ' '] ++ (type.tokens ++ [.ofBlank ' '])
  | type :: types => ([.ofBlank ' '] ++ (type.tokens ++ [])) ++ .ofMark ',' :: listedTokens types

theorem tokens_listed {types : List TypeDraft} {rest : List Char}
    (stops : Stops Text.isBlank rest) :
    tokens (listed types ++ rest) = listedTokens types ++ tokens rest := by
  induction types with
  | nil => rfl
  | cons type types ih =>
    cases types with
    | nil =>
      rw [listed, List.cons_append, List.append_assoc, List.singleton_append,
        tokens_blank (by decide) (type.stops_isBlank _),
        type.tokens_append (stops_cons (by decide) _), tokens_blank (by decide) stops]
      simp [listedTokens]
    | cons next types =>
      rw [listed, List.cons_append, List.append_assoc, List.cons_append,
        tokens_blank (by decide) (type.stops_isBlank _),
        type.tokens_append (stops_cons (by decide) _), tokens_alone (by decide), ih]
      · simp [listedTokens]
      · simp

theorem typeList_listedTokens {types : List TypeDraft} (some : types ≠ []) :
    TypeList (listedTokens types) (types.map TypeDraft.tokens) := by
  induction types with
  | nil => exact absurd rfl some
  | cons type types ih =>
    cases types with
    | nil => exact .one (type.spaced (gap_blank ' ') (gap_blank ' '))
    | cons next types => exact .more (type.spaced (gap_blank ' ') gap_nil) (ih (by simp))

/-! ### Entries -/

/-- The characters that a line can start with. -/
def lineStarts : List Char :=
  ['p', 'i', 'c', 'e', 'r', '@']

/-- A line spells an item, or something that does not matter. -/
structure Spells (line : List Char) (item : Option Item) : Prop where
  entry : Entry (tokens line) item
  start : ∃ c rest, line = c :: rest ∧ c ∈ lineStarts

theorem tokens_keyword (word : String) (isWord : IsWord word.toList) {rest : List Char}
    (stops : Stops Text.isBlank rest) :
    tokens (word.toList ++ ' ' :: rest) = .ofWord word :: .ofBlank ' ' :: tokens rest := by
  rw [tokens_word isWord (stops_cons (by decide) rest), tokens_blank (by decide) stops]
  rfl

theorem tokens_semicolon : tokens [';'] = [.ofMark ';'] := by
  simpa [tokens] using tokens_alone (show Alone ';' by decide) []

theorem spells_package (name : DottedName) :
    Spells (packageText name) (some (.package (String.ofList name.text))) where
  entry := by
    have written : tokens (packageText name) =
        [] ++ .ofWord "package" :: ([.ofBlank ' '] ++ (name.tokens ++ ([] ++ [.ofMark ';']))) := by
      unfold packageText
      rw [tokens_keyword "package" (by decide) (name.stops_isBlank _),
        name.tokens_append (stops_cons (by decide) _), tokens_semicolon]
      simp
    rw [written, ← name.textOf_tokens]
    exact .package .nil (gap_blank ' ') name.qualifiedName gap_nil
  start := ⟨'p', _, rfl, by decide⟩

theorem importEnd_importEnding (onDemand : Bool) :
    ImportEnd onDemand (tokens (importEnding onDemand)) := by
  cases onDemand with
  | false =>
    rw [importEnding, if_neg (by simp), tokens_semicolon]
    exact .single gap_nil
  | true =>
    rw [importEnding, if_pos rfl, tokens_alone (by decide), tokens_alone (by decide),
      tokens_semicolon]
    exact .onDemand gap_nil gap_nil gap_nil

theorem stops_importEnding (onDemand : Bool) : Stops isWordChar (importEnding onDemand) := by
  cases onDemand <;> exact stops_cons (by decide) _

/-- No name starts with a keyword. -/
theorem DottedName.exists_tokens (name : DottedName) :
    ∃ word rest, name.tokens = word :: rest ∧ word.isTheWord "static" = false := by
  obtain ⟨part, parts, whole⟩ := name.exists_parts
  have other : (Token.ofWord part.text).isTheWord "static" = false := by
    rw [Token.isTheWord_ofWord, beq_eq_false_iff_ne]
    exact fun same => part.notKeyword (same ▸ by decide)
  rw [DottedName.tokens, whole]
  cases parts with
  | nil => exact ⟨_, _, rfl, other⟩
  | cons next parts => exact ⟨_, _, rfl, other⟩

theorem ImportDraft.spells (draft : ImportDraft) :
    Spells draft.text (draft.read?.map .imported) := by
  have written : tokens (draft.name.text ++ importEnding draft.onDemand) =
      draft.name.tokens ++ tokens (importEnding draft.onDemand) :=
    draft.name.tokens_append (stops_importEnding draft.onDemand)
  have blank := draft.name.stops_isBlank (importEnding draft.onDemand)
  unfold text read?
  by_cases isStatic : draft.isStatic
  · rw [if_pos isStatic, if_pos isStatic]
    obtain ⟨front, inline, ending⟩ := (importEnd_importEnding draft.onDemand).exists_open
    refine ⟨?_, 'i', _, rfl, by decide⟩
    rw [tokens_keyword "import" (by decide)
        (stops_isBlank_word (by decide) _),
      tokens_keyword "static" (by decide) blank, written, ending]
    have inside : Open ([.ofBlank ' '] ++ (draft.name.tokens ++ front)) :=
      ((Inline.of_gap (gap_blank ' ')).append
        (draft.name.qualifiedName.inline.append inline)).isOpen
    simpa using Entry.static gap_nil (gap_blank ' ') inside
  · rw [if_neg isStatic, if_neg isStatic]
    obtain ⟨word, rest, name, other⟩ := draft.name.exists_tokens
    refine ⟨?_, 'i', _, rfl, by decide⟩
    rw [tokens_keyword "import" (by decide) blank, written, ← draft.name.textOf_tokens,
      name]
    exact .imported gap_nil (gap_blank ' ') (name ▸ draft.name.qualifiedName) other
      (importEnd_importEnding draft.onDemand)

/-- The tokens of a clause, if there are types in it. -/
def clauseTokens (keyword : String) (types : List TypeDraft) : List Token :=
  if types = [] then [] else .ofWord keyword :: listedTokens types

theorem typesClause_clauseTokens (keyword : String) (types : List TypeDraft) :
    TypesClause keyword (clauseTokens keyword types) (types.map TypeDraft.tokens) := by
  unfold clauseTokens
  split
  · rename_i none
    rw [none]
    exact .none
  · rename_i some
    exact .listed (typeList_listedTokens some)

theorem superclassClause_clauseTokens (superclass : Option TypeDraft) :
    SuperclassClause (clauseTokens "extends" superclass.toList)
      (superclass.map TypeDraft.tokens) := by
  cases superclass with
  | none => exact .none
  | some type => exact .extended (type.spaced (gap_blank ' ') (gap_blank ' '))

theorem stops_clauseText (keyword : String) (isWord : IsWord keyword.toList)
    (types : List TypeDraft) {rest : List Char} (stops : Stops Text.isBlank rest) :
    Stops Text.isBlank (clauseText keyword types ++ rest) := by
  unfold clauseText
  split
  · exact stops
  · rw [List.append_assoc]
    exact stops_isBlank_word isWord _

theorem tokens_clauseText (keyword : String) (isWord : IsWord keyword.toList)
    (types : List TypeDraft) {rest : List Char} (stops : Stops Text.isBlank rest) :
    tokens (clauseText keyword types ++ rest) = clauseTokens keyword types ++ tokens rest := by
  unfold clauseText clauseTokens
  split
  · rfl
  · rename_i some
    have blank : Stops isWordChar (listed types ++ rest) := by
      match types, some with
      | [type], _ => exact stops_cons (by decide) _
      | type :: next :: types, _ => exact stops_cons (by decide) _
    rw [List.append_assoc, tokens_word isWord blank, tokens_listed stops]
    rfl

theorem TypeKind.tokens_start (kind : TypeKind) {rest : List Char}
    (stops : Stops Text.isBlank rest) :
    tokens (kind.start.text ++ ' ' :: rest) = kind.start :: .ofBlank ' ' :: tokens rest := by
  cases kind with
  | «class» | interface | enumeration | record =>
    exact tokens_keyword _ (by decide) stops
  | annotationType =>
    have whole : TypeKind.annotationType.start.text = '@' :: "interface".toList := by decide
    have length : "interface".length = "interface".toList.length := by decide
    have taken : extent '@' ("interface".toList ++ ' ' :: rest) =
        (.annotationType, "interface".length) := by
      rw [extent_at, if_pos (List.isPrefixOf_iff_prefix.mpr (List.prefix_append _ _))]
    rw [whole, List.cons_append, tokens_cons, taken, length, List.take_left, List.drop_left,
      tokens_blank (by decide) stops, ← whole]
    rfl

namespace DeclarationDraft

variable (draft : DeclarationDraft)

/-- The heading of a declaration. -/
def heading : Heading where
  kind := draft.kind
  name := draft.name.text
  superclass := draft.superclass.map TypeDraft.tokens
  interfaces := draft.interfaces.map TypeDraft.tokens

theorem declaration_heading : draft.heading.declaration = draft.read := by
  simp [heading, Heading.declaration, read, TypeDraft.writtenType_tokens, Function.comp_def]

/-- The tokens between the name and the clauses. -/
def particulars : List Token :=
  tokens draft.parameters.text.toList ++
    ((if draft.kind = .record then [.ofMark '(', .ofMark ')'] else []) ++ [.ofBlank ' '])

theorem particulars_particulars : Particulars draft.kind draft.particulars := by
  unfold particulars
  by_cases isRecord : draft.kind = .record
  · rw [isRecord, if_pos rfl]
    have parameters := draft.parameters.typeArguments gap_nil
    rw [List.append_nil] at parameters
    exact .components parameters .nil (gap_blank ' ')
  · rw [if_neg isRecord, List.nil_append]
    exact .parameters isRecord (draft.parameters.typeArguments (gap_blank ' '))

theorem tokens_particulars {rest : List Char} (stops : Stops Text.isBlank rest) :
    tokens (draft.name.text.toList ++ (draft.parameters.text.toList ++
        ((if draft.kind = .record then ['(', ')'] else []) ++ ' ' :: rest))) =
      .ofWord draft.name.text :: (draft.particulars ++ tokens rest) := by
  have behind : tokens ((if draft.kind = .record then ['(', ')'] else []) ++ ' ' :: rest) =
      (if draft.kind = .record then [.ofMark '(', .ofMark ')'] else []) ++
        .ofBlank ' ' :: tokens rest := by
    split
    · rw [List.cons_append, List.cons_append, tokens_alone (by decide), tokens_alone (by decide),
        List.nil_append, tokens_blank (by decide) stops]
      rfl
    · rw [List.nil_append, tokens_blank (by decide) stops]
      rfl
  have bracket : Stops isWordChar
      ((if draft.kind = .record then ['(', ')'] else []) ++ ' ' :: rest) := by
    split <;> exact stops_cons (by decide) _
  rw [draft.name.tokens_append (draft.parameters.stops_isWordChar bracket),
    draft.parameters.tokens_append, behind, particulars]
  simp

/-- The header of a declaration. -/
def header : List Token :=
  draft.particulars ++ (clauseTokens "extends" draft.superclass.toList ++
    (clauseTokens draft.kind.interfacesKeyword draft.interfaces ++ []))

theorem header_header : Header draft.heading draft.header :=
  .written draft.particulars_particulars (superclassClause_clauseTokens draft.superclass)
    (fun named => draft.superclass_ok (by simpa [heading] using named))
    (typesClause_clauseTokens _ draft.interfaces) .none

theorem declares : Declares draft.heading (tokens draft.text) := by
  have written : tokens draft.text =
      ([] ++ draft.kind.start :: ([.ofBlank ' '] ++ .ofWord draft.name.text :: draft.header)) ++
        .ofMark '{' :: ([] ++ [.ofMark '}']) := by
    have braces : tokens ['{', '}'] = [.ofMark '{', .ofMark '}'] := by
      rw [tokens_alone (by decide), tokens_alone (by decide)]
      simp [tokens]
    have body : Stops Text.isBlank ['{', '}'] := stops_cons (by decide) _
    have keyword : IsWord draft.kind.interfacesKeyword.toList := by
      cases draft.kind <;> decide
    have interfaces := stops_clauseText _ keyword draft.interfaces body
    have superclass := stops_clauseText "extends" (by decide)
      draft.superclass.toList interfaces
    unfold text
    rw [draft.kind.tokens_start (draft.name.stops_isBlank _), draft.tokens_particulars superclass,
      tokens_clauseText "extends" (by decide) _ interfaces,
      tokens_clauseText _ keyword _ body, braces]
    simp [header]
  rw [written]
  exact .written (.written .nil (gap_blank ' ') draft.header_header) (.written .nil)

theorem spells : Spells draft.text (some (.declared draft.read)) where
  entry := by
    rw [← draft.declaration_heading]
    exact .declared draft.declares
  start := by
    unfold text
    cases draft.kind <;> exact ⟨_, _, rfl, by decide⟩

end DeclarationDraft

/-! ### Sources -/

section Layout

variable {tokens : List Token} {token : Token}

theorem Whole.layout (whole : Whole tokens) (layout : token.isLayout = true) :
    Whole (token :: tokens) := by
  have open_ {front : List Token} (rest : Open front) : Open (token :: front) :=
    (Inline.layout layout .nil).isOpen.append rest
  cases whole with
  | semicolon front => exact .semicolon (open_ front)
  | block front inside => exact .block (open_ front) inside

/-- Layout before an entry belongs to it. -/
theorem Entry.layout {item : Option Item} (entry : Entry tokens item)
    (layout : token.isLayout = true) : Entry (token :: tokens) item := by
  cases entry with
  | package modifiers gap name behind => exact .package (.layout layout modifiers) gap name behind
  | imported before gap name other behind =>
    exact .imported (gap_cons_iff.mpr ⟨layout, before⟩) gap name other behind
  | static before gap rest => exact .static (gap_cons_iff.mpr ⟨layout, before⟩) gap rest
  | declared declares =>
    obtain ⟨⟨modifiers, gap, header⟩, block⟩ := declares
    exact .declared (.written (.written (.layout layout modifiers) gap header) block)
  | other modifiers ends unannotated other whole =>
    refine .other (.layout layout modifiers) ends (unannotated.imp_right fun none => ?_) other
      (whole.layout layout)
    exact List.forall_mem_cons.mpr ⟨Token.isMark_of_isLayout layout '@', none⟩

theorem Shows.layout {items : List Item} (shows : Shows tokens items)
    (layout : token.isLayout = true) : Shows (token :: tokens) items := by
  obtain ⟨sequence, behind⟩ := shows
  cases sequence with
  | nil => exact .written .nil (gap_cons_iff.mpr ⟨layout, behind⟩)
  | entry entry rest => exact .written (.entry (entry.layout layout) rest) behind

end Layout

theorem Spells.stops_isBlank {line : List Char} {item : Option Item} (spells : Spells line item)
    (rest : List Char) : Stops Text.isBlank (line ++ rest) := by
  obtain ⟨c, others, rfl, start⟩ := spells.start
  have visible : lineStarts.all (!Text.isBlank ·) = true := by decide
  exact stops_cons (by simpa using List.all_eq_true.mp visible c start) _

theorem unlines_cons (line : List Char) (lines : List (List Char)) :
    unlines (line :: lines) = line ++ '\n' :: unlines lines := by
  simp [unlines]

theorem stops_unlines {lines : List (List Char)} {items : List (Option Item)}
    (spelled : List.Forall₂ Spells lines items) : Stops Text.isBlank (unlines lines) := by
  cases spelled with
  | nil => simp [Stops, unlines]
  | cons spells rest =>
    rw [unlines_cons]
    exact spells.stops_isBlank _

theorem Spells.tokens_append {line : List Char} {item : Option Item} (spells : Spells line item)
    {rest : List Char} (stops : Stops Text.isBlank rest) :
    tokens (line ++ '\n' :: rest) = tokens line ++ .ofBlank '\n' :: tokens rest := by
  rw [spells.entry.whole.closed.tokens_text_append, tokens_blank (by decide) stops]

/-- Lines show the items that they spell. -/
theorem shows_unlines {lines : List (List Char)} {items : List (Option Item)}
    (spelled : List.Forall₂ Spells lines items) :
    Shows (tokens (unlines lines)) (items.flatMap Option.toList) := by
  induction spelled with
  | nil =>
    rw [unlines, List.flatMap_nil, tokens]
    exact .written .nil gap_nil
  | @cons line item lines items spells rest ih =>
    rw [unlines_cons, spells.tokens_append (stops_unlines rest), List.flatMap_cons]
    have sequence := Sequence.entry spells.entry .nil
    rw [List.append_nil, List.append_nil] at sequence
    exact sequence.shows (ih.layout (by simp))

/-- Lines are more than layout, if there are any. -/
theorem not_gap_unlines {lines : List (List Char)} {items : List (Option Item)}
    (spelled : List.Forall₂ Spells lines items) (written : lines ≠ []) :
    ¬ Gap (tokens (unlines lines)) := by
  cases spelled with
  | nil => exact absurd rfl written
  | @cons line item lines items spells rest =>
    rw [unlines_cons, spells.tokens_append (stops_unlines rest)]
    exact fun gap => spells.entry.whole.not_gap fun token member => gap token (by simp [member])

/-- No mark of byte order starts the lines. -/
theorem withoutMark_unlines {lines : List (List Char)} {items : List (Option Item)}
    (spelled : List.Forall₂ Spells lines items) :
    Unit.withoutMark (unlines lines) = unlines lines := by
  cases spelled with
  | nil => simp [unlines, Unit.withoutMark]
  | @cons line item lines items spells rest =>
    obtain ⟨c, others, rfl, start⟩ := spells.start
    have unmarked : c ≠ Unit.byteOrderMark := by
      rintro rfl
      exact absurd start (by decide)
    rw [unlines_cons, List.cons_append, Unit.withoutMark, if_neg (by simpa using unmarked)]

namespace Draft

variable (draft : Draft)

/-- What the lines of a draft spell. -/
def items : List (Option Item) :=
  draft.package.toList.map (fun name => some (.package (String.ofList name.text))) ++
    (draft.imports.map (fun imported => imported.read?.map .imported) ++
      draft.declarations.map (fun declaration => some (.declared declaration.read)))

theorem forall₂_spells : List.Forall₂ Spells draft.lines draft.items := by
  refine List.rel_append ?_ (List.rel_append ?_ ?_)
  · simpa [List.forall₂_map_left_iff, List.forall₂_map_right_iff, List.forall₂_same] using
      fun name _ => spells_package name
  · simpa [List.forall₂_map_left_iff, List.forall₂_map_right_iff, List.forall₂_same] using
      fun imported _ => imported.spells
  · simpa [List.forall₂_map_left_iff, List.forall₂_map_right_iff, List.forall₂_same] using
      fun declaration _ => declaration.spells

/-- Adding imports changes the imports only, and nothing is added for an import of members. -/
theorem foldl_add_imports (imports : List ImportDraft) (unit : Unit) :
    (imports.flatMap fun imported => (imported.read?.map Item.imported).toList).foldl
        Unit.add unit =
      { unit with imports := unit.imports ++ imports.filterMap ImportDraft.read? } := by
  induction imports generalizing unit with
  | nil => simp
  | cons imported imports ih =>
    rw [List.flatMap_cons, List.foldl_append, ih]
    cases read : imported.read? <;> simp [read, Unit.add]

/-- Adding declarations changes the declarations only. -/
theorem foldl_add_declarations (declarations : List DeclarationDraft) (unit : Unit) :
    (declarations.map fun declaration => Item.declared declaration.read).foldl Unit.add unit =
      { unit with
        declarations := unit.declarations ++ declarations.map DeclarationDraft.read } := by
  induction declarations generalizing unit with
  | nil => simp
  | cons declaration declarations ih => simp [ih, Unit.add]

theorem ofItems_items : Unit.ofItems (draft.items.flatMap Option.toList) = draft.unit := by
  have declared : (draft.declarations.map fun declaration =>
      some (Item.declared declaration.read)).flatMap Option.toList =
        draft.declarations.map fun declaration => Item.declared declaration.read := by
    rw [List.flatMap_map, List.map_eq_flatMap]
    rfl
  have imported := @List.flatMap_map _ _ _ (fun imported : ImportDraft =>
    imported.read?.map Item.imported) Option.toList draft.imports
  rw [Unit.ofItems, items, List.flatMap_append, List.flatMap_append, declared, imported,
    List.foldl_append, List.foldl_append, foldl_add_imports, foldl_add_declarations]
  cases package : draft.package <;> simp [unit, package, Unit.add]

theorem lines_eq_nil_iff : draft.lines = [] ↔ draft.isEmpty = true := by
  simp [lines, isEmpty, and_assoc]

end Draft

namespace Unit

/-- **Units are read back from their texts.** What is read from the text of a draft is the unit that
it means; only where nothing is written, nothing is read. -/
theorem ofText?_source (draft : Draft) :
    ofText? draft.source = if draft.isEmpty then none else some draft.unit := by
  by_cases empty : draft.isEmpty
  · rw [if_pos empty, Draft.source, draft.lines_eq_nil_iff.mpr empty]
    simp [ofText?, unlines, Text.allBlank]
  · have text : tokens (withoutMark draft.source.toList) = tokens (unlines draft.lines) := by
      rw [Draft.source, String.toList_ofList, withoutMark_unlines draft.forall₂_spells]
    have shows := shows_unlines draft.forall₂_spells
    have visible := not_gap_unlines draft.forall₂_spells
      (mt draft.lines_eq_nil_iff.mp empty)
    rw [if_neg empty, ofText?_of_shows (text ▸ shows) (text ▸ visible), draft.ofItems_items]

example :
    Draft.source
        { package := some ⟨[⟨"p", by decide, ⟨'p', by decide⟩, by decide⟩], by decide⟩
          imports := []
          declarations :=
            [{ kind := .class
               name := ⟨"T", by decide, ⟨'T', by decide⟩, by decide⟩
               parameters := ⟨"", .inl rfl⟩
               superclass := some
                 { name := ⟨[⟨"S", by decide, ⟨'S', by decide⟩, by decide⟩], by decide⟩
                   arguments := ⟨"<A>", .inr ⟨[.ofWord "A"], by decide +kernel,
                     .token (by decide) (by decide) (by decide) (by decide) .nil⟩⟩ }
               interfaces := []
               superclass_ok := fun _ => rfl
               interfaces_ok := nofun }] } =
      "package p;\nclass T extends S<A> {}\n" := by
  decide +kernel

/-- **The empty unit is not read from its text**, and no declaration is read with a point in its
name. -/
theorem unit_unread :
    ofText? (Draft.source { package := none, imports := [], declarations := [] }) ≠
        some (Draft.unit { package := none, imports := [], declarations := [] }) ∧
      ofText? "class a.b {}\n" ≠ some { declarations := [{ kind := .class, name := "a.b" }] } := by
  decide +kernel

end Unit

end TypeLineage.Java
