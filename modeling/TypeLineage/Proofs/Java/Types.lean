import TypeLineage.Proofs.Java.Modifiers
import TypeLineage.Java.Header

/-!
# Types as they are written

A type is written as words with points between them (`Written`); each word may have annotations
before it and type arguments behind it (`Segment`), and dimensions may stand at the end. A type is
read as a whole: nothing in it is taken for the keyword of a clause or for the comma behind it, and
it is over where a keyword may come (`HeaderState.foldl_read_written`).

## The model

A header is read from left to right by `HeaderState.read`. Outside of brackets the state is
`HeaderState.resting`, and there is one lemma for each thing that can be written, which says that
all of its tokens are kept and which word is awaited behind it.
-/

namespace TypeLineage.Java

/-- What can stand in angle brackets. -/
inductive Angled : List Token → Prop
  | nil : Angled []
  | token {token : Token} {rest : List Token} : token.isBracket = false →
    token.isMark '<' = false → token.isMark '>' = false → token.isMark ';' = false → Angled rest →
    Angled (token :: rest)
  | angles {inside rest : List Token} : Angled inside → Angled rest →
    Angled (.ofMark '<' :: (inside ++ .ofMark '>' :: rest))
  | round {inside rest : List Token} : Balanced inside → Angled rest →
    Angled (.ofMark '(' :: (inside ++ .ofMark ')' :: rest))
  | square {inside rest : List Token} : Angled inside → Angled rest →
    Angled (.ofMark '[' :: (inside ++ .ofMark ']' :: rest))

/-- Type arguments or type parameters, if there are any, and the layout around them. -/
inductive TypeArguments : List Token → Prop
  | none {gap : List Token} : Gap gap → TypeArguments gap
  | list {before inside behind : List Token} : Gap before → Angled inside → Gap behind →
    TypeArguments (before ++ .ofMark '<' :: (inside ++ .ofMark '>' :: behind))

/-- Annotations and layout. -/
inductive Annotations : List Token → Prop
  | nil : Annotations []
  | layout {token : Token} {rest : List Token} : token.isLayout = true → Annotations rest →
    Annotations (token :: rest)
  | annotated {annotated rest : List Token} : Annotation annotated → Annotations rest →
    Annotations (annotated ++ rest)

/-- The dimensions of an array, if there are any, and the layout around them. -/
inductive Dimensions : List Token → Prop
  | none {gap : List Token} : Gap gap → Dimensions gap
  | more {before inside rest : List Token} : Annotations before → Gap inside → Dimensions rest →
    Dimensions (before ++ .ofMark '[' :: (inside ++ .ofMark ']' :: rest))

/-- A word of a type, with what belongs to it. -/
structure Segment where
  /-- The annotations. -/
  annotations : List Token
  /-- The word. -/
  name : Token
  /-- The type arguments. -/
  arguments : List Token
  annotations_ok : Annotations annotations
  name_ok : name.isWord = true
  arguments_ok : TypeArguments arguments

/-- The tokens of a segment. -/
def Segment.tokens (segment : Segment) : List Token :=
  segment.annotations ++ segment.name :: segment.arguments

/-- The tokens of a type with some segments. -/
inductive Written : List Segment → List Token → Prop
  | last {dimensions : List Token} (segment : Segment) : Dimensions dimensions →
    Written [segment] (segment.tokens ++ dimensions)
  | qualified {segments : List Segment} {tokens : List Token} (segment : Segment) :
    Written segments tokens → Written (segment :: segments) (segment.tokens ++ .ofMark '.' :: tokens)

/-! ### Types have no braces -/

theorem Angled.inline {tokens : List Token} (angled : Angled tokens) : Inline tokens := by
  induction angled with
  | nil => exact .nil
  | token plain _ _ other _ ih => exact .token plain other ih
  | angles _ _ inside rest =>
    exact .token (by decide) (by decide) (inside.append (.token (by decide) (by decide) rest))
  | round inside _ ih => exact .round inside ih
  | square _ _ inside rest => exact .square inside rest

theorem TypeArguments.inline {tokens : List Token} (arguments : TypeArguments tokens) :
    Inline tokens := by
  cases arguments with
  | none gap => exact .of_gap gap
  | list before inside behind =>
    have closed : Inline (.ofMark '>' :: _) :=
      .token (by decide) (by decide) (.of_gap behind)
    exact (Inline.of_gap before).append
      (.token (by decide) (by decide) (inside.inline.append closed))

theorem Annotations.inline {tokens : List Token} (annotations : Annotations tokens) :
    Inline tokens := by
  induction annotations with
  | nil => exact .nil
  | layout layout _ ih => exact .layout layout ih
  | annotated annotated _ ih => exact annotated.inline.append ih

theorem Dimensions.inline {tokens : List Token} (dimensions : Dimensions tokens) :
    Inline tokens := by
  induction dimensions with
  | none gap => exact .of_gap gap
  | more before inside _ ih => exact before.inline.append (.square (.of_gap inside) ih)

theorem Segment.inline (segment : Segment) : Inline segment.tokens :=
  segment.annotations_ok.inline.append (.word segment.name_ok segment.arguments_ok.inline)

theorem Written.inline {segments : List Segment} {tokens : List Token}
    (written : Written segments tokens) : Inline tokens := by
  induction written with
  | last segment dimensions => exact segment.inline.append dimensions.inline
  | qualified segment _ ih => exact segment.inline.append (.token (by decide) (by decide) ih)

/-! ### Reading -/

namespace HeaderState

/-- The reading of a header outside of all brackets. -/
def resting (clause : Option Clause) (awaited : Awaited) (current : List Token)
    (types : List (Clause × String)) : HeaderState :=
  { clause, awaited, current, types }

/-- In parentheses all tokens are kept. -/
theorem foldl_read_balanced {tokens : List Token} (balanced : Balanced tokens) (kind : TypeKind)
    (state : HeaderState) (inside : 0 < state.parentheses) :
    tokens.foldl (read kind) state = { state with current := tokens.reverse ++ state.current } := by
  induction balanced generalizing state with
  | nil => rfl
  | token plain _ ih =>
    have opening := Token.isMark_of_not_isBracket plain (show '(' ∈ _ by decide)
    have closing := Token.isMark_of_not_isBracket plain (show ')' ∈ _ by decide)
    rw [List.foldl_cons, ih _ (by simp [read, inside, opening, closing])]
    simp [read, inside, opening, closing, keep]
  | group paired _ _ ihInside ih =>
    cases paired with
    | round | square | curly => simp [read, inside, keep, ihInside, ih]

/-- In angle brackets all tokens are kept. -/
theorem foldl_read_angled {tokens : List Token} (angled : Angled tokens) (kind : TypeKind)
    (state : HeaderState) (outside : state.parentheses = 0) (inside : 0 < state.angles) :
    tokens.foldl (read kind) state = { state with current := tokens.reverse ++ state.current } := by
  induction angled generalizing state with
  | nil => rfl
  | token plain less greater _ _ ih =>
    have opening := Token.isMark_of_not_isBracket plain (show '(' ∈ _ by decide)
    rw [List.foldl_cons, ih] <;>
      simp [read, outside, inside, opening, less, greater, keep]
  | angles _ _ ihInside ih => simp [read, outside, inside, keep, ihInside, ih]
  | round balanced _ ih => simp [read, outside, inside, keep, foldl_read_balanced balanced, ih]
  | square _ _ ihInside ih => simp [read, outside, inside, keep, ihInside, ih]

section Resting

variable {kind : TypeKind} {clause : Option Clause} {awaited : Awaited} {current : List Token}
  {types : List (Clause × String)}

theorem foldl_read_gap {gap : List Token} (layout : Gap gap) :
    gap.foldl (read kind) (resting clause awaited current types) =
      resting clause awaited (gap.reverse ++ current) types := by
  induction gap generalizing current with
  | nil => rfl
  | cons token rest ih =>
    obtain ⟨isLayout, behind⟩ := gap_cons_iff.mp layout
    have step : (resting clause awaited current types).read kind token =
        resting clause awaited (token :: current) types := by
      simp [read, readOpen, Token.isWord_of_isLayout isLayout,
        Token.isMark_of_isLayout isLayout, keep, resting]
    rw [List.foldl_cons, step, ih behind]
    simp

/-- Behind an annotation the word of a type is awaited. -/
theorem foldl_read_qualifiedName {name : List Token} (qualified : QualifiedName name) :
    name.foldl (read kind) (resting clause .annotationName current types) =
      resting clause .name (name.reverse ++ current) types := by
  induction qualified generalizing current with
  | word isWord => simp [read, readOpen, readWord, isWord, keep, resting]
  | @qualified word before behind rest isWord layoutBefore layoutBehind _ ih =>
    have first : (resting clause .annotationName current types).read kind word =
        resting clause .name (word :: current) types := by
      simp [read, readOpen, readWord, isWord, keep, resting]
    have point (current : List Token) :
        (resting clause .name current types).read kind (.ofMark '.') =
          resting clause .annotationName (.ofMark '.' :: current) types := by
      simp [read, readOpen, keep, resting]
    simp [first, foldl_read_gap layoutBefore, point, foldl_read_gap layoutBehind, ih]

theorem foldl_read_parentheses {inside : List Token} (balanced : Balanced inside) :
    (.ofMark '(' :: (inside ++ [.ofMark ')'])).foldl (read kind)
        (resting clause awaited current types) =
      resting clause awaited (.ofMark ')' :: (inside.reverse ++ .ofMark '(' :: current)) types := by
  simp [read, readOpen, keep, foldl_read_balanced balanced, resting]

theorem foldl_read_annotation {annotated : List Token} (written : Annotation annotated) :
    annotated.foldl (read kind) (resting clause awaited current types) =
      resting clause .name (annotated.reverse ++ current) types := by
  obtain ⟨layout, name, arguments⟩ := written
  have mark : (resting clause awaited current types).read kind (.ofMark '@') =
      resting clause .annotationName (.ofMark '@' :: current) types := by
    simp [read, readOpen, keep, resting]
  cases arguments with
  | none => simp [mark, foldl_read_gap layout, foldl_read_qualifiedName name]
  | list between inside =>
    rw [List.foldl_cons, mark, List.foldl_append, foldl_read_gap layout, List.foldl_append,
      foldl_read_qualifiedName name, List.foldl_append, foldl_read_gap between,
      foldl_read_parentheses inside]
    simp

/-- Annotations leave it at the word that was awaited, or a word of a type is awaited. -/
theorem foldl_read_annotations (kind : TypeKind) (clause : Option Clause) (awaited : Awaited)
    (current : List Token) (types : List (Clause × String)) {tokens : List Token}
    (annotations : Annotations tokens) :
    ∃ awaited', (awaited' = awaited ∨ awaited' = .name) ∧
      tokens.foldl (read kind) (resting clause awaited current types) =
        resting clause awaited' (tokens.reverse ++ current) types := by
  induction annotations generalizing awaited current with
  | nil => exact ⟨awaited, .inl rfl, rfl⟩
  | @layout token rest layout _ ih =>
    obtain ⟨awaited', same, reading⟩ := ih awaited (token :: current)
    refine ⟨awaited', same, ?_⟩
    rw [← List.singleton_append, List.foldl_append, foldl_read_gap (gap_singleton layout)]
    simpa using reading
  | @annotated annotated rest written _ ih =>
    obtain ⟨awaited', same, reading⟩ := ih .name (annotated.reverse ++ current)
    refine ⟨awaited', .inr (same.elim id id), ?_⟩
    rw [List.foldl_append, foldl_read_annotation written, reading]
    simp

theorem foldl_read_typeArguments {tokens : List Token} (arguments : TypeArguments tokens) :
    tokens.foldl (read kind) (resting clause awaited current types) =
      resting clause awaited (tokens.reverse ++ current) types := by
  cases arguments with
  | none gap => exact foldl_read_gap gap
  | @list before inside behind layoutBefore angled layoutBehind =>
    have bracket (current : List Token) :
        (.ofMark '<' :: (inside ++ [.ofMark '>'])).foldl (read kind)
            (resting clause awaited current types) =
          resting clause awaited (.ofMark '>' :: (inside.reverse ++ .ofMark '<' :: current))
            types := by
      simp [read, readOpen, keep, foldl_read_angled angled, resting]
    have whole : before ++ .ofMark '<' :: (inside ++ .ofMark '>' :: behind) =
        before ++ ((.ofMark '<' :: (inside ++ [.ofMark '>'])) ++ behind) := by
      simp
    rw [whole, List.foldl_append, foldl_read_gap layoutBefore, List.foldl_append, bracket,
      foldl_read_gap layoutBehind]
    simp

theorem foldl_read_dimensions {tokens : List Token} (dimensions : Dimensions tokens) :
    tokens.foldl (read kind) (resting clause .keyword current types) =
      resting clause .keyword (tokens.reverse ++ current) types := by
  induction dimensions generalizing current with
  | none gap => exact foldl_read_gap gap
  | @more before inside rest annotations layout _ ih =>
    obtain ⟨awaited', _, reading⟩ := foldl_read_annotations kind clause .keyword current
      types annotations
    have opening (current : List Token) :
        (resting clause awaited' current types).read kind (.ofMark '[') =
          resting clause .keyword (.ofMark '[' :: current) types := by
      simp [read, readOpen, keep, resting]
    have closing (current : List Token) :
        (resting clause .keyword current types).read kind (.ofMark ']') =
          resting clause .keyword (.ofMark ']' :: current) types := by
      simp [read, readOpen, keep, resting]
    simp [reading, opening, foldl_read_gap layout, closing, ih]

theorem foldl_read_segment (segment : Segment) :
    segment.tokens.foldl (read kind) (resting clause .name current types) =
      resting clause .keyword (segment.tokens.reverse ++ current) types := by
  obtain ⟨awaited', same, reading⟩ := foldl_read_annotations kind clause .name current types
    segment.annotations_ok
  obtain rfl : awaited' = .name := same.elim id id
  have word (current : List Token) :
      (resting clause .name current types).read kind segment.name =
        resting clause .keyword (segment.name :: current) types := by
    simp [read, readOpen, readWord, segment.name_ok, keep, resting]
  simp [Segment.tokens, reading, word, foldl_read_typeArguments segment.arguments_ok]

/-- A type is kept as a whole, and behind it a keyword may come. -/
theorem foldl_read_written {segments : List Segment} {tokens : List Token}
    (written : Java.Written segments tokens) :
    tokens.foldl (read kind) (resting clause .name current types) =
      resting clause .keyword (tokens.reverse ++ current) types := by
  induction written generalizing current with
  | last segment dimensions =>
    rw [List.foldl_append, foldl_read_segment, foldl_read_dimensions dimensions]
    simp
  | qualified segment _ ih =>
    have point (current : List Token) :
        (resting clause .keyword current types).read kind (.ofMark '.') =
          resting clause .name (.ofMark '.' :: current) types := by
      simp [read, readOpen, keep, resting]
    rw [List.foldl_append, foldl_read_segment, List.foldl_cons, point, ih]
    simp

end Resting

end HeaderState

end TypeLineage.Java
