import TypeLineage.Proofs.Java.Grammar

/-!
# Only headings count

What is read from a source text depends on the headings of its declarations only. A declaration may
be exchanged for any other one with the same heading, whatever its modifiers, annotations, type
parameters, components, permitted types and body, and the unit stays the same; nothing that is
declared inside of a body is among its declarations (`Unit.ofText?_depends_on_headings`).
-/

namespace TypeLineage.Java

theorem Sequence.shows {tokens behind : List Token} {earlier later : List Item}
    (sequence : Sequence tokens earlier) (shows : Shows behind later) :
    Shows (tokens ++ behind) (earlier ++ later) := by
  obtain ⟨others, gap⟩ := shows
  rw [← List.append_assoc]
  exact .written (sequence.append others) gap

theorem Body.closed {body : List Token} (block : Body body) : Closed body := by
  cases block with
  | @written inside balanced => exact @Closed.mark (.ofMark '{' :: inside) '}' (by decide)

theorem Body.exists_text {body : List Token} (block : Body body) :
    ∃ rest, body.flatMap Token.text = '{' :: rest := by
  cases block with
  | written => exact ⟨_, rfl⟩

theorem Declares.sequence {heading : Heading} {tokens : List Token}
    (declares : Declares heading tokens) :
    Sequence tokens [.declared heading.declaration] := by
  simpa using Sequence.entry (.declared declares) .nil

namespace Unit

/-- The declarations among some items. -/
def declared (items : List Item) : List Declaration :=
  items.filterMap fun
    | .declared declaration => some declaration
    | _ => none

theorem declarations_ofItems (items : List Item) :
    (ofItems items).declarations = declared items := by
  have grown (unit : Unit) :
      (items.foldl add unit).declarations = unit.declarations ++ declared items := by
    induction items generalizing unit with
    | nil => simp [declared]
    | cons item rest ih => cases item <;> simp [ih, add, declared]
  simpa [ofItems] using grown {}

section Exchange

variable {before declaration after : List Token} {earlier later : List Item} {heading : Heading}

/-- A unit with a declaration in it holds the heading of the declaration. -/
theorem ofText?_of_declares {source : String}
    (cut : tokens (withoutMark source.toList) = before ++ (declaration ++ after))
    (entries : Sequence before earlier) (declares : Declares heading declaration)
    (others : Shows after later) :
    ofText? source =
      some (ofItems (earlier ++ .declared heading.declaration :: later)) := by
  refine ofText?_of_shows ?_ ?_
  · rw [cut]
    exact entries.shows (declares.sequence.shows others)
  · rw [cut]
    exact fun gap => declares.whole.not_gap fun token member => gap token (by simp [member])

/-- In the place of a declaration any text can stand whose tokens are a declaration. -/
theorem tokens_exchange {text written : List Char}
    (cut : tokens text = before ++ (declaration ++ after)) (entries : Sequence before earlier)
    (declares : Declares heading (tokens written)) :
    tokens (before.flatMap Token.text ++ (written ++ after.flatMap Token.text)) =
      before ++ (tokens written ++ after) := by
  have whole := flatMap_text_tokens text
  rw [cut, List.flatMap_append] at whole
  have front := entries.closed.tokens_append (whole ▸ cut)
    (written ++ after.flatMap Token.text)
  rw [← List.append_assoc] at cut
  rw [front, declares.whole.closed.tokens_text_append, tokens_behind cut]

/-- In the place of a body any text can stand whose tokens are a body. -/
theorem tokens_exchange_body {front body : List Token} {text written : List Char}
    (cut : tokens text = front ++ (body ++ after)) (block : Body body)
    (other : Body (tokens written)) :
    tokens (front.flatMap Token.text ++ (written ++ after.flatMap Token.text)) =
      front ++ (tokens written ++ after) := by
  -- both bodies start with the same brace
  obtain ⟨rest, start⟩ := block.exists_text
  obtain ⟨rest', start'⟩ := other.exists_text
  rw [flatMap_text_tokens] at start'
  have whole := flatMap_text_tokens text
  rw [cut, List.flatMap_append, List.flatMap_append, start, List.cons_append] at whole
  have front := tokens_append_of_cut (by decide) (whole ▸ cut) rfl
    (rest' ++ after.flatMap Token.text)
  rw [← List.cons_append, ← start', other.closed.tokens_text_append] at front
  rw [← List.append_assoc] at cut
  rw [front, tokens_behind cut]

end Exchange

/-- **Bodies do not matter**: what is read from a source text depends on the headings of its
declarations only. In the place of a declaration any text may stand that is a declaration with the
same heading, and in the place of its body any text that is a body. The declarations that are read
are those on the top level. -/
theorem ofText?_depends_on_headings {source : String} {before declaration after : List Token}
    {earlier later : List Item} {heading : Heading}
    (cut : tokens (withoutMark source.toList) = before ++ (declaration ++ after))
    (entries : Sequence before earlier) (declares : Declares heading declaration)
    (others : Shows after later) :
    ∃ unit, ofText? source = some unit ∧
      unit.declarations = declared earlier ++ heading.declaration :: declared later ∧
      (∀ (changed : String) (written : List Char), Declares heading (tokens written) →
        withoutMark changed.toList =
          before.flatMap Token.text ++ (written ++ after.flatMap Token.text) →
        ofText? changed = some unit) ∧
      ∀ (changed : String) (front body : List Token) (written : List Char),
        declaration = front ++ body → Opening heading front → Body body →
        Body (tokens written) →
        withoutMark changed.toList =
          (before ++ front).flatMap Token.text ++ (written ++ after.flatMap Token.text) →
        ofText? changed = some unit := by
  refine ⟨_, ofText?_of_declares cut entries declares others, ?_, ?_, ?_⟩
  · rw [declarations_ofItems]
    simp [declared]
  · intro changed written declares' text
    refine ofText?_of_declares ?_ entries declares' others
    rw [text, tokens_exchange cut entries declares']
  · intro changed front body written split opening block block' text
    subst split
    have declares' : Declares heading (front ++ tokens written) := .written opening block'
    refine ofText?_of_declares ?_ entries declares' others
    rw [text, tokens_exchange_body (by simpa using cut) block block']
    simp

namespace Sample

/-- The heading of `class T extends S`. -/
def heading : Heading where
  kind := .class
  name := "T"
  superclass := some [.ofWord "S"]

/-- The tokens of a header ` extends S`. -/
def header : List Token :=
  [.ofBlank ' '] ++ (.ofWord "extends" :: ([.ofBlank ' '] ++ ([.ofWord "S"] ++ [])) ++ ([] ++ []))

/-- The type `S`. -/
def segment : Segment where
  annotations := []
  name := .ofWord "S"
  arguments := []
  annotations_ok := .nil
  name_ok := by simp
  arguments_ok := .none gap_nil

theorem header_header : Header heading header :=
  .written (.parameters nofun (.none (gap_blank ' ')))
    (.extended (.written (gap_blank ' ') (.last segment (.none gap_nil)) gap_nil)) (fun _ => rfl)
    .none .none

/-- The tokens of `class T extends S`, perhaps with modifiers. -/
def front (modifiers : List Token) : List Token :=
  modifiers ++ .ofWord "class" :: ([.ofBlank ' '] ++ .ofWord "T" :: header)

theorem opening_front {modifiers : List Token} (before : Modifiers modifiers) :
    Opening heading (front modifiers) :=
  .written before (gap_blank ' ') header_header

theorem body_empty : Body (.ofMark '{' :: ([] ++ [.ofMark '}'])) :=
  .written .nil

/-- The tokens of `package p;`. -/
def package : List Token :=
  [] ++ .ofWord "package" :: ([.ofBlank ' '] ++ ([.ofWord "p"] ++ ([] ++ [.ofMark ';'])))

theorem entry_package : Entry package (some (.package (textOf [.ofWord "p"]))) :=
  .package .nil (gap_blank ' ') (.word (by simp)) gap_nil

theorem tokens_source : tokens (withoutMark "package p;class T extends S{}".toList) =
    (package ++ []) ++ ((front [] ++ .ofMark '{' :: ([] ++ [.ofMark '}'])) ++ ([] ++ [])) := by
  decide +kernel

/-- The body `{/*}*/class U{}}`. -/
theorem body_nested : Body (tokens "\x7b/*\x7d*/class U\x7b\x7d\x7d".toList) := by
  have nested : tokens "\x7b/*\x7d*/class U\x7b\x7d\x7d".toList =
      .ofMark '{' :: (⟨.layout, "/*\x7d*/".toList⟩ :: .ofWord "class" :: .ofBlank ' ' ::
        .ofWord "U" :: .ofMark '{' :: ([] ++ [.ofMark '}']) ++ [.ofMark '}']) := by
    decide +kernel
  rw [nested]
  exact .written (.token (by decide) (.token (by decide) (.token (by decide) (.token (by decide)
    (.group .curly .nil .nil)))))

theorem declares_final : Declares heading (tokens "final class T extends S{}".toList) := by
  have written : tokens "final class T extends S{}".toList =
      front [.ofWord "final", .ofBlank ' '] ++ .ofMark '{' :: ([] ++ [.ofMark '}']) := by
    decide +kernel
  rw [written]
  exact .written (opening_front (.word (by decide) (.layout (by simp) .nil))) body_empty

end Sample

/-- A brace in a comment, a nested class and a modifier make no difference. -/
theorem unit_despite_body :
    ofText? "package p;class T extends S{}" =
        some { package := "p", declarations := [⟨.class, "T", some "S", []⟩] } ∧
      ofText? "package p;class T extends S\x7b/*\x7d*/class U\x7b\x7d\x7d" =
        ofText? "package p;class T extends S{}" ∧
      ofText? "package p;final class T extends S{}" =
        ofText? "package p;class T extends S{}" := by
  obtain ⟨unit, read, _, exchange, exchangeBody⟩ := ofText?_depends_on_headings
    Sample.tokens_source
    (.entry Sample.entry_package .nil) (.written (Sample.opening_front .nil) Sample.body_empty)
    (.written .nil gap_nil)
  refine ⟨by decide +kernel, ?_, ?_⟩
  · rw [read]
    exact exchangeBody _ _ _ _ rfl (Sample.opening_front .nil) Sample.body_empty
      Sample.body_nested (by decide +kernel)
  · rw [read]
    exact exchange _ _ Sample.declares_final (by decide +kernel)

end Unit

end TypeLineage.Java
