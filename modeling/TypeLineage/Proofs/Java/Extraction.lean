import TypeLineage.Proofs.Java.Headers
import Mathlib.Data.List.Forall2

/-!
# Names of supertypes

The text that is kept of a supertype goes up to the first type argument, and its blanks are left out.
So of a plain type, which has no annotations and no type arguments but at its end, the text is the
name with single points; of every other type it is not (`Reference.writtenType_eq_iff`).
-/

namespace TypeLineage.Java

/-- The tokens of a type with some segments, which is no array. -/
inductive Reference : List Segment → List Token → Prop
  | last (segment : Segment) : Reference [segment] segment.tokens
  | qualified {segments : List Segment} {tokens : List Token} (segment : Segment) :
    Reference segments tokens →
    Reference (segment :: segments) (segment.tokens ++ .ofMark '.' :: tokens)

/-- The words of a type with single points between them. -/
def bareName : List Segment → List Char
  | [] => []
  | [segment] => segment.name.text
  | segment :: segments => segment.name.text ++ '.' :: bareName segments

/-- A type without annotations, and without type arguments before its end. -/
structure Plain (segments : List Segment) : Prop where
  annotations : ∀ segment ∈ segments, Gap segment.annotations
  arguments : ∀ segment ∈ segments.dropLast, Gap segment.arguments

/-- What holds of all tokens of a text: words consist of characters for words. -/
def WordsWritten (tokens : List Token) : Prop :=
  ∀ token ∈ tokens, token.isWord = true → token.text ≠ [] ∧ ∀ c ∈ token.text, isWordChar c = true

/-- All layout is blank, so there are no comments. -/
def Uncommented (tokens : List Token) : Prop :=
  ∀ token ∈ tokens, token.isLayout = true → ∀ c ∈ token.text, Text.isBlank c = true

/-- A text up to the first type argument and without blanks. -/
def bare (text : List Char) : List Char :=
  (text.takeWhile (· != '<')).filter fun c => !Text.isBlank c

/-! ### Bare texts -/

theorem bare_append_of_plain {front : List Char} (plain : ∀ c ∈ front, c ≠ '<')
    (back : List Char) :
    bare (front ++ back) = front.filter (fun c => !Text.isBlank c) ++ bare back := by
  rw [bare, List.takeWhile_append_of_pos (by simpa using plain), List.filter_append, bare]

theorem bare_append_of_blank {front : List Char} (blank : ∀ c ∈ front, Text.isBlank c = true)
    (back : List Char) : bare (front ++ back) = bare back := by
  have plain : ∀ c ∈ front, c ≠ '<' := by
    rintro c member rfl
    exact absurd (blank _ member) (by decide)
  have none : front.filter (fun c => !Text.isBlank c) = [] := by
    simpa using blank
  rw [bare_append_of_plain plain, none, List.nil_append]

theorem bare_append_of_word {front : List Char} (word : ∀ c ∈ front, isWordChar c = true)
    (back : List Char) : bare (front ++ back) = front ++ bare back := by
  have plain : ∀ c ∈ front, c ≠ '<' := by
    rintro c member rfl
    exact absurd (word _ member) (by decide)
  have all : front.filter (fun c => !Text.isBlank c) = front :=
    List.filter_eq_self.mpr fun c member => by simp [isBlank_of_isWordChar (word c member)]
  rw [bare_append_of_plain plain, all]

theorem bare_less (back : List Char) : bare ('<' :: back) = [] := by
  simp [bare]

theorem bare_cons {c : Char} (plain : c ≠ '<') (visible : Text.isBlank c = false)
    (back : List Char) : bare (c :: back) = c :: bare back := by
  simp [bare, plain, visible]

/-- Blanks at the end do not count. -/
theorem bare_append_blank (front : List Char) {back : List Char}
    (blank : ∀ c ∈ back, Text.isBlank c = true) : bare (front ++ back) = bare front := by
  induction front with
  | nil => simpa using bare_append_of_blank blank []
  | cons c rest ih =>
    by_cases less : c = '<'
    · rw [less, List.cons_append, bare_less, bare_less]
    · by_cases visible : Text.isBlank c
      · simpa [bare, less, visible] using ih
      · simpa [bare, less, visible] using ih

section Layout

variable {gap front back : List Token}

theorem Uncommented.left (blank : Uncommented (front ++ back)) : Uncommented front :=
  fun token member => blank token (List.mem_append_left back member)

theorem Uncommented.right (blank : Uncommented (front ++ back)) : Uncommented back :=
  fun token member => blank token (List.mem_append_right front member)

theorem Gap.isBlank (layout : Gap gap) (blank : Uncommented gap) :
    ∀ c ∈ gap.flatMap Token.text, Text.isBlank c = true := by
  intro c member
  obtain ⟨token, inGap, inToken⟩ := List.mem_flatMap.mp member
  exact blank token inGap (layout token inGap) c inToken

theorem Gap.bare_append (layout : Gap gap) (blank : Uncommented gap) (back : List Char) :
    bare (gap.flatMap Token.text ++ back) = bare back :=
  bare_append_of_blank (layout.isBlank blank) back

/-- The text of a type is its text up to the first type argument and without blanks. -/
theorem writtenType_eq_bare {type : List Token} (blank : Uncommented type) :
    writtenType type = String.ofList (bare (type.flatMap Token.text)) := by
  obtain ⟨before, layoutBefore, whole⟩ := exists_gap type
  obtain ⟨behind, layoutBehind, reversed⟩ := exists_gap (skipLayout type).reverse
  have halves : skipLayout type =
      (skipLayout (skipLayout type).reverse).reverse ++ behind.reverse := by
    rw [← List.reverse_append, ← reversed, List.reverse_reverse]
  have blankBehind : Uncommented behind.reverse := by
    rw [whole, halves] at blank
    exact blank.right.right
  have blankBefore : Uncommented before := by
    rw [whole] at blank
    exact blank.left
  conv_rhs => rw [whole, halves]
  rw [List.flatMap_append, layoutBefore.bare_append blankBefore, List.flatMap_append,
    bare_append_blank _ (layoutBehind.reverse.isBlank blankBehind)]
  rfl

/-- Without layout at its ends a type may hold any comments. -/
theorem writtenType_of_ends {type init rest : List Token} {first last : Token}
    (start : type = first :: rest) (visible : first.isLayout = false)
    (finish : type = init ++ [last]) (visible' : last.isLayout = false) :
    writtenType type = String.ofList (bare (type.flatMap Token.text)) := by
  have front : type.dropWhile Token.isLayout = type := by
    rw [start, List.dropWhile_cons_of_neg (by simp [visible])]
  have back : type.reverse.dropWhile Token.isLayout = type.reverse := by
    rw [finish, List.reverse_append, List.reverse_singleton, List.singleton_append,
      List.dropWhile_cons_of_neg (by simp [visible'])]
  simp only [writtenType, front, back, List.reverse_reverse]
  rfl

end Layout

/-! ### Segments -/

section Segments

variable {segment : Segment}

theorem Annotations.exists_mark {annotations : List Token} (written : Annotations annotations)
    (notGap : ¬ Gap annotations) :
    ∃ gap rest, Gap gap ∧ annotations = gap ++ .ofMark '@' :: rest := by
  induction written with
  | nil => exact absurd gap_nil notGap
  | @layout token rest layout _ ih =>
    have gap := gap_singleton layout
    obtain ⟨before, others, layoutBefore, rfl⟩ := ih fun rest => notGap (gap.append rest)
    exact ⟨token :: before, others, gap.append layoutBefore, rfl⟩
  | annotated annotated _ _ =>
    cases annotated with
    | written => exact ⟨[], _, gap_nil, rfl⟩

/-- The mark of an annotation stays in the text. -/
theorem Segment.bare_of_annotated (annotated : ¬ Gap segment.annotations)
    (blank : Uncommented segment.annotations) (behind : List Token) :
    (bare ((segment.tokens ++ behind).flatMap Token.text)).head? = some '@' := by
  obtain ⟨gap, rest, layout, whole⟩ := segment.annotations_ok.exists_mark annotated
  rw [whole] at blank
  rw [Segment.tokens, whole]
  simp only [List.append_assoc, List.flatMap_append, List.cons_append, List.flatMap_cons]
  rw [layout.bare_append blank.left, show (Token.ofMark '@').text = ['@'] from rfl,
    List.singleton_append, bare_cons (by decide) (by decide), List.head?_cons]

theorem Segment.uncommented_arguments (segment : Segment) (blank : Uncommented segment.tokens) :
    Uncommented segment.arguments :=
  fun token member => blank token (by simp [Segment.tokens, member])

theorem Segment.bare_of_unannotated (unannotated : Gap segment.annotations)
    (blank : Uncommented segment.annotations)
    (word : ∀ c ∈ segment.name.text, isWordChar c = true) (behind : List Token) :
    bare ((segment.tokens ++ behind).flatMap Token.text) =
      segment.name.text ++ bare ((segment.arguments ++ behind).flatMap Token.text) := by
  rw [Segment.tokens, List.append_assoc, List.flatMap_append, unannotated.bare_append blank,
    List.cons_append, List.flatMap_cons, bare_append_of_word word]

/-- The text ends at the first type argument. -/
theorem TypeArguments.bare_of_not_gap {arguments : List Token} (written : TypeArguments arguments)
    (notGap : ¬ Gap arguments) (blank : Uncommented arguments) (behind : List Token) :
    bare ((arguments ++ behind).flatMap Token.text) = [] := by
  cases written with
  | none gap => exact absurd gap notGap
  | list layout _ _ =>
    simp only [List.append_assoc, List.flatMap_append, List.cons_append, List.flatMap_cons]
    rw [layout.bare_append blank.left]
    exact bare_less _

/-- Type arguments at the end of a type do not count. -/
theorem TypeArguments.bare_eq_nil {arguments : List Token} (written : TypeArguments arguments)
    (blank : Uncommented arguments) : bare (arguments.flatMap Token.text) = [] := by
  by_cases gap : Gap arguments
  · simpa [bare] using gap.bare_append blank []
  · simpa using written.bare_of_not_gap gap blank []

end Segments

/-! ### Types -/

theorem Reference.ne_nil {segments : List Segment} {tokens : List Token}
    (reference : Reference segments tokens) : segments ≠ [] := by
  cases reference <;> simp

theorem bareName_cons {segments : List Segment} (some : segments ≠ []) (segment : Segment) :
    bareName (segment :: segments) = segment.name.text ++ '.' :: bareName segments := by
  cases segments with
  | nil => exact absurd rfl some
  | cons next rest => rfl

theorem plain_singleton (segment : Segment) : Plain [segment] ↔ Gap segment.annotations :=
  ⟨fun plain => plain.annotations segment (by simp),
    fun gap => ⟨by simpa using gap, by simp⟩⟩

theorem plain_cons {segments : List Segment} (some : segments ≠ []) (segment : Segment) :
    Plain (segment :: segments) ↔
      Gap segment.annotations ∧ Gap segment.arguments ∧ Plain segments := by
  constructor
  · rintro ⟨annotations, arguments⟩
    rw [List.dropLast_cons_of_ne_nil some] at arguments
    rw [List.forall_mem_cons] at annotations arguments
    exact ⟨annotations.1, arguments.1, annotations.2, arguments.2⟩
  · rintro ⟨annotations, arguments, rest⟩
    refine ⟨List.forall_mem_cons.mpr ⟨annotations, rest.annotations⟩, ?_⟩
    rw [List.dropLast_cons_of_ne_nil some]
    exact List.forall_mem_cons.mpr ⟨arguments, rest.arguments⟩

theorem head?_bareName {segment : Segment} (written : segment.name.text ≠ [])
    (segments : List Segment) :
    (bareName (segment :: segments)).head? = segment.name.text.head? := by
  obtain ⟨c, rest, text⟩ := List.exists_cons_of_ne_nil written
  cases segments <;> simp [bareName, text]

/-- An annotation is never part of a bare name. -/
theorem Segment.bare_ne_of_annotated {segment : Segment}
    (annotated : ¬ Gap segment.annotations) (blank : Uncommented segment.annotations)
    (written : segment.name.text ≠ []) (word : ∀ c ∈ segment.name.text, isWordChar c = true)
    (behind : List Token) (segments : List Segment) :
    bare ((segment.tokens ++ behind).flatMap Token.text) ≠ bareName (segment :: segments) := by
  intro same
  have start := segment.bare_of_annotated annotated blank behind
  rw [same, head?_bareName written] at start
  exact absurd (word '@' (List.mem_of_head? start)) (by decide)

/-- The text up to the first type argument and without blanks is the bare name of plain types, and of
no other ones. -/
theorem Reference.bare_eq_iff {segments : List Segment} {tokens : List Token}
    (reference : Reference segments tokens) (words : WordsWritten tokens)
    (blank : Uncommented tokens) :
    bare (tokens.flatMap Token.text) = bareName segments ↔ Plain segments := by
  induction reference with
  | last segment =>
    obtain ⟨written, word⟩ := words segment.name (by simp [Segment.tokens]) segment.name_ok
    rw [plain_singleton, ← List.append_nil segment.tokens]
    by_cases annotated : Gap segment.annotations
    · have ended := segment.arguments_ok.bare_eq_nil (segment.uncommented_arguments blank)
      have text := segment.bare_of_unannotated annotated blank.left word []
      rw [List.append_nil segment.arguments, ended] at text
      exact iff_of_true (by simpa [bareName] using text) annotated
    · exact iff_of_false (segment.bare_ne_of_annotated annotated blank.left written word [] [])
        annotated
  | @qualified segments tokens segment reference ih =>
    obtain ⟨written, word⟩ := words segment.name (by simp [Segment.tokens]) segment.name_ok
    rw [plain_cons reference.ne_nil]
    by_cases annotated : Gap segment.annotations
    · have blankArguments := segment.uncommented_arguments blank.left
      rw [segment.bare_of_unannotated annotated blank.left.left word,
        bareName_cons reference.ne_nil, List.append_cancel_left_eq]
      by_cases arguments : Gap segment.arguments
      · have behind := ih (fun token member => words token (by simp [member]))
          (fun token member => blank token (by simp [member]))
        rw [List.flatMap_append, arguments.bare_append blankArguments, List.flatMap_cons,
          show (Token.ofMark '.').text = ['.'] from rfl, List.singleton_append,
          bare_cons (by decide) (by decide), List.cons.injEq, behind]
        simp [annotated, arguments]
      · rw [segment.arguments_ok.bare_of_not_gap arguments blankArguments]
        exact iff_of_false (List.cons_ne_nil _ _).symm fun plain => arguments plain.2.1
    · exact iff_of_false
        (segment.bare_ne_of_annotated annotated blank.left.left written word _ _)
        fun plain => annotated plain.1

theorem Reference.writtenType_eq_iff {segments : List Segment} {type : List Token}
    (reference : Reference segments type) (words : WordsWritten type) (blank : Uncommented type) :
    writtenType type = String.ofList (bareName segments) ↔ Plain segments := by
  rw [writtenType_eq_bare blank, String.ofList_inj, reference.bare_eq_iff words blank]

/-! ### Supertypes of declarations -/

theorem wordsWritten_tokens (text : List Char) : WordsWritten (tokens text) :=
  fun _ member word => ⟨text_ne_nil_of_mem_tokens member, isWordChar_of_mem_tokens member word⟩

theorem WordsWritten.mono {tokens others : List Token} (words : WordsWritten tokens)
    (fewer : others ⊆ tokens) : WordsWritten others :=
  fun token member => words token (fewer member)

theorem Spaced.subset {type tokens : List Token} (spaced : Spaced type tokens) :
    type ⊆ tokens := by
  obtain ⟨_, _, _⟩ := spaced
  intro token member
  simp [member]

theorem TypeList.subset {tokens type : List Token} {types : List (List Token)}
    (list : TypeList tokens types) (listed : type ∈ types) : type ⊆ tokens := by
  induction list with
  | one spaced => exact List.mem_singleton.mp listed ▸ spaced.subset
  | more spaced _ ih =>
    rcases List.mem_cons.mp listed with rfl | later
    · exact fun token member => by simp [spaced.subset member]
    · exact fun token member => by simp [ih later member]

theorem SuperclassClause.subset {tokens type : List Token} {superclass : Option (List Token)}
    (clause : SuperclassClause tokens superclass) (listed : type ∈ superclass.toList) :
    type ⊆ tokens := by
  cases clause with
  | none => simp at listed
  | extended spaced =>
    obtain rfl : type = _ := by simpa using listed
    exact fun token member => List.mem_cons_of_mem _ (spaced.subset member)

theorem TypesClause.subset {keyword : String} {tokens type : List Token}
    {types : List (List Token)} (clause : TypesClause keyword tokens types)
    (listed : type ∈ types) : type ⊆ tokens := by
  cases clause with
  | none => simp at listed
  | listed list => exact fun token member => List.mem_cons_of_mem _ (list.subset listed member)

/-- The supertypes of a heading are written in its declaration. -/
theorem Declares.subset {heading : Heading} {tokens type : List Token}
    (declares : Declares heading tokens)
    (listed : type ∈ heading.superclass.toList ++ heading.interfaces) : type ⊆ tokens := by
  obtain ⟨⟨_, _, ⟨_, superclass, _, interfaces, _⟩⟩, _⟩ := declares
  intro token member
  rcases List.mem_append.mp listed with extended | implemented
  · simp [superclass.subset extended member]
  · simp [interfaces.subset implemented member]

/-- What is read of a type that is written without comments: it is the bare name of the type if the
type is plain, and something else if it is not. -/
def ReadAs (type : List Token) (text : String) : Prop :=
  ∀ segments, Reference segments type → Uncommented type →
    (text = String.ofList (bareName segments) ↔ Plain segments)

namespace Unit

/-- **A supertype is read as its bare name if and only if it is plain**: there are no annotations in
it, and type arguments only at its end. -/
theorem supertype_bare_iff_plain {source : String} {before declaration after : List Token}
    {earlier later : List Item} {heading : Heading}
    (cut : tokens (withoutMark source.toList) = before ++ (declaration ++ after))
    (entries : Sequence before earlier) (declares : Declares heading declaration)
    (others : Shows after later) :
    ∃ unit found, ofText? source = some unit ∧
      unit.declarations[(declared earlier).length]? = some found ∧
      found.kind = heading.kind ∧ found.name = heading.name ∧
      Option.Rel ReadAs heading.superclass found.superclass ∧
      List.Forall₂ ReadAs heading.interfaces found.interfaces := by
  have words : WordsWritten declaration :=
    (wordsWritten_tokens (withoutMark source.toList)).mono fun token member => by
      simp [cut, member]
  have read {type : List Token} (listed : type ∈ heading.superclass.toList ++ heading.interfaces) :
      ReadAs type (writtenType type) := fun segments reference blank =>
    reference.writtenType_eq_iff (words.mono (declares.subset listed)) blank
  refine ⟨_, heading.declaration, ofText?_of_declares cut entries declares others, ?_, rfl, rfl,
    ?_, ?_⟩
  · simp [declarations_ofItems, declared]
  · cases superclass : heading.superclass with
    | none => simp [Heading.declaration, superclass]
    | some type =>
      simp only [Heading.declaration, superclass, Option.map_some]
      exact .some (read (by simp [superclass]))
  · rw [Heading.declaration, List.forall₂_map_right_iff, List.forall₂_same]
    exact fun type member => read (by simp [member])

/-- A superclass without annotations and type arguments is read as its name. -/
theorem superclass_bare :
    ∃ unit found, ofText? "package p;class T extends S{}" = some unit ∧
      unit.declarations[0]? = some found ∧ found.superclass = some "S" := by
  obtain ⟨unit, found, read, declared, _, _, superclass, _⟩ := supertype_bare_iff_plain
    Sample.tokens_source
    (.entry Sample.entry_package .nil) (.written (Sample.opening_front .nil) Sample.body_empty)
    (.written .nil gap_nil)
  refine ⟨unit, found, read, declared, ?_⟩
  obtain ⟨text, readAs, same⟩ :
      ∃ text, ReadAs [.ofWord "S"] text ∧ found.superclass = some text := by
    cases same : found.superclass with
    | none =>
      rw [same] at superclass
      nomatch superclass
    | some text =>
      rw [same] at superclass
      cases superclass with
      | some readAs => exact ⟨text, readAs, rfl⟩
  have bare : text = String.ofList (bareName [Sample.segment]) :=
    (readAs _ (.last Sample.segment) (by simp [Uncommented])).mpr
      ((plain_singleton _).mpr gap_nil)
  rw [same, bare]
  decide

/-- **A segment behind type arguments is lost, and annotations are kept.** -/
theorem supertype_not_bare :
    ofText? "class T extends Outer<List<A>>.Inner implements @Ann Base<T>{}" =
      some { declarations := [⟨.class, "T", some "Outer", ["@AnnBase"]⟩] } := by
  decide +kernel

end Unit

end TypeLineage.Java
