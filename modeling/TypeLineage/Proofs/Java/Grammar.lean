import TypeLineage.Proofs.Java.Heading
import TypeLineage.Proofs.Java.Lexing

/-!
# Units as they are written

The top level of a source text is a sequence of entries: the package, imports, declarations of types,
and whatever else may stand there (`Entry`). An entry is told by its first token behind modifiers, and
it ends with a semicolon or with a block, so nothing that stands inside an entry is ever taken for an
entry of its own: the items of a text are those of its entries, in their order (`Shows.items_eq`).

Annotations, type arguments, annotated dimensions and layout may stand wherever the language allows
them. Bodies, arguments and all that is in parentheses may hold anything whose brackets are paired.
-/

namespace TypeLineage.Java

/-- The text of some tokens. -/
def textOf (tokens : List Token) : String :=
  String.ofList (tokens.flatMap Token.text)

/-- What stands behind the name in an import, which may be on demand. -/
inductive ImportEnd : Bool → List Token → Prop
  | single {gap : List Token} : Gap gap → ImportEnd false (gap ++ [.ofMark ';'])
  | onDemand {before between behind : List Token} : Gap before → Gap between → Gap behind →
    ImportEnd true (before ++ .ofMark '.' :: (between ++ .ofMark '*' :: (behind ++ [.ofMark ';'])))

/-- What stands behind the keyword of a record, which is a keyword nowhere else. -/
inductive RecordStart : List Token → Prop
  | parameters {gap behind rest : List Token} {name : Token} : Gap gap → name.isWord = true →
    Gap behind → RecordStart (gap ++ name :: (behind ++ .ofMark '<' :: rest))
  | components {gap behind rest : List Token} {name : Token} : Gap gap → name.isWord = true →
    Gap behind → RecordStart (gap ++ name :: (behind ++ .ofMark '(' :: rest))

/-- What an entry that matters starts with, behind its modifiers. -/
inductive Starts : Token → List Token → Prop
  | package {rest : List Token} : Starts (.ofWord "package") rest
  | imported {rest : List Token} : Starts (.ofWord "import") rest
  | declared (kind : TypeKind) {rest : List Token} : kind ≠ .record → kind ≠ .annotationType →
    Starts kind.start rest
  | annotationType {token : Token} {rest : List Token} : token.kind = .annotationType →
    Starts token rest
  | record {rest : List Token} : RecordStart rest → Starts TypeKind.record.start rest

/-- An entry, and the item that it is if it matters. -/
inductive Entry : List Token → Option Item → Prop
  | package {modifiers gap name behind : List Token} : Modifiers modifiers → Gap gap →
    QualifiedName name → Gap behind →
    Entry (modifiers ++ .ofWord "package" :: (gap ++ (name ++ (behind ++ [.ofMark ';']))))
      (some (.package (textOf name)))
  | imported {before gap name behind : List Token} {word : Token} {onDemand : Bool} : Gap before →
    Gap gap → QualifiedName (word :: name) → word.isTheWord "static" = false →
    ImportEnd onDemand behind →
    Entry (before ++ .ofWord "import" :: (gap ++ (word :: (name ++ behind))))
      (some (.imported { path := textOf (word :: name), onDemand }))
  | static {before gap rest : List Token} : Gap before → Gap gap → Open rest →
    Entry (before ++ .ofWord "import" :: (gap ++ .ofWord "static" :: (rest ++ [.ofMark ';']))) none
  | declared {heading : Heading} {tokens : List Token} : Declares heading tokens →
    Entry tokens (some (.declared heading.declaration))
  | other {modifiers rest : List Token} {token : Token} : Modifiers modifiers →
    EndsModifiers token rest → Unannotated modifiers token → ¬ Starts token rest →
    Whole (modifiers ++ token :: rest) → Entry (modifiers ++ token :: rest) none

/-- Entries, and the items that they are. -/
inductive Sequence : List Token → List Item → Prop
  | nil : Sequence [] []
  | entry {tokens rest : List Token} {item : Option Item} {items : List Item} : Entry tokens item →
    Sequence rest items → Sequence (tokens ++ rest) (item.toList ++ items)

/-- The top level of a source text, and its items. -/
inductive Shows : List Token → List Item → Prop
  | written {tokens behind : List Token} {items : List Item} : Sequence tokens items →
    Gap behind → Shows (tokens ++ behind) items

/-! ### Entries end where they should -/

theorem ImportEnd.exists_open {onDemand : Bool} {tokens : List Token}
    (written : ImportEnd onDemand tokens) :
    ∃ front, Inline front ∧ tokens = front ++ [.ofMark ';'] := by
  cases written with
  | single gap => exact ⟨_, .of_gap gap, rfl⟩
  | @onDemand before between behind first second third =>
    refine ⟨before ++ .ofMark '.' :: (between ++ .ofMark '*' :: behind), ?_, by simp⟩
    have star : Inline (.ofMark '*' :: behind) := .token (by decide) (by decide) (.of_gap third)
    exact (Inline.of_gap first).append
      (.token (by decide) (by decide) ((Inline.of_gap second).append star))

theorem Declares.whole {heading : Heading} {tokens : List Token}
    (declares : Declares heading tokens) : Whole tokens := by
  obtain ⟨⟨modifiers, gap, header⟩, ⟨inside⟩⟩ := declares
  have name := Inline.word (Token.isWord_ofWord heading.name) header.inline
  have start : Inline (heading.kind.start :: _) :=
    .token (by cases heading.kind <;> decide) (by cases heading.kind <;> decide)
      ((Inline.of_gap gap).append name)
  simpa using Whole.block (modifiers.inline.append start).isOpen inside

theorem Entry.whole {tokens : List Token} {item : Option Item} (entry : Entry tokens item) :
    Whole tokens := by
  cases entry with
  | package modifiers gap name behind =>
    have start := Inline.word (Token.isWord_ofWord "package")
      ((Inline.of_gap gap).append (name.inline.append (.of_gap behind)))
    simpa using Whole.semicolon (modifiers.inline.append start).isOpen
  | imported before gap name _ behind =>
    obtain ⟨front, inline, rfl⟩ := behind.exists_open
    have start := Inline.word (Token.isWord_ofWord "import")
      ((Inline.of_gap gap).append (name.inline.append inline))
    simpa using Whole.semicolon ((Inline.of_gap before).append start).isOpen
  | static before gap rest =>
    have start := Inline.word (Token.isWord_ofWord "import") ((Inline.of_gap gap).append
      (.word (Token.isWord_ofWord "static") .nil))
    simpa using Whole.semicolon (((Inline.of_gap before).append start).isOpen.append rest)
  | declared declares => exact declares.whole
  | other _ _ _ _ whole => exact whole

/-! ### Names -/

/-- A name ends with a word. -/
theorem QualifiedName.exists_concat {name : List Token} (qualified : QualifiedName name) :
    ∃ front word, name = front ++ [word] ∧ word.isWord = true := by
  induction qualified with
  | word isWord => exact ⟨[], _, rfl, isWord⟩
  | @qualified word before behind rest _ _ _ _ ih =>
    obtain ⟨front, last, rfl, isWord⟩ := ih
    exact ⟨word :: (before ++ .ofMark '.' :: (behind ++ front)), last, by simp, isWord⟩

theorem QualifiedName.dottedName {name before behind : List Token}
    (qualified : QualifiedName name) (first : ∀ token ∈ before, token.isWord = false)
    (last : ∀ token ∈ behind, token.isWord = false) :
    dottedName (before ++ (name ++ behind)) = textOf name := by
  have front : (before ++ (name ++ behind)).dropWhile (fun token => !token.isWord) =
      name ++ behind := by
    obtain ⟨word, rest, rfl, isWord⟩ := qualified.exists_cons
    rw [List.dropWhile_append_of_pos (by simpa using first), List.cons_append,
      List.dropWhile_cons_of_neg (by simp [isWord])]
  have back : (name ++ behind).reverse.dropWhile (fun token => !token.isWord) = name.reverse := by
    obtain ⟨init, word, rfl, isWord⟩ := qualified.exists_concat
    rw [List.reverse_append, List.dropWhile_append_of_pos (by simpa using last),
      List.reverse_append, List.reverse_singleton, List.singleton_append,
      List.dropWhile_cons_of_neg (by simp [isWord])]
  simp only [Java.dottedName, front, back, List.reverse_reverse, textOf]

theorem Gap.isWord {gap : List Token} (layout : Gap gap) : ∀ token ∈ gap, token.isWord = false :=
  fun token member => Token.isWord_of_isLayout (layout token member)

theorem ImportEnd.isWord {onDemand : Bool} {tokens : List Token}
    (written : ImportEnd onDemand tokens) : ∀ token ∈ tokens, token.isWord = false := by
  cases written with
  | single gap => simpa [or_imp, forall_and] using gap.isWord
  | onDemand before between behind =>
    simpa [or_imp, forall_and] using ⟨before.isWord, between.isWord, behind.isWord⟩

theorem Gap.not_star {gap : List Token} (layout : Gap gap) :
    gap.any (·.isMark '*') = false :=
  List.any_eq_false.mpr fun token member => by
    simp [Token.isMark_of_isLayout (layout token member)]

theorem QualifiedName.isWord_head {word : Token} {rest : List Token}
    (qualified : QualifiedName (word :: rest)) : word.isWord = true := by
  obtain ⟨_, _, same, isWord⟩ := qualified.exists_cons
  rwa [(List.cons.inj same).1]

theorem QualifiedName.not_star {name : List Token} (qualified : QualifiedName name) :
    name.any (·.isMark '*') = false := by
  induction qualified with
  | word isWord => simp [Token.isMark_of_isWord isWord]
  | qualified isWord before behind _ ih =>
    simp only [List.any_cons, List.any_append, Token.isMark_of_isWord isWord, before.not_star,
      behind.not_star, ih, Token.isMark_ofMark]
    decide

theorem ImportEnd.any_star {onDemand : Bool} {tokens : List Token}
    (written : ImportEnd onDemand tokens) : tokens.any (·.isMark '*') = onDemand := by
  cases written with
  | single layout => simp [layout.not_star]
  | onDemand => simp

/-! ### Reading entries -/

/-- A keyword that no modifier is, behind modifiers. -/
theorem endsModifiers_ofWord {word : String} (rest : List Token)
    (other : word ∉ "non" :: modifiers) : EndsModifiers (.ofWord word) rest where
  layout := by simp
  annotated := by simp
  word := fun modifier member => by
    rw [Token.isTheWord_ofWord, beq_eq_false_iff_ne]
    rintro rfl
    exact other (List.mem_cons_of_mem _ member)
  nonSealed := fun non => by
    rw [Token.isTheWord_ofWord, beq_iff_eq] at non
    exact absurd (List.mem_cons.mpr (.inl non)) other

theorem Modifiers.afterModifiers_ofWord {front : List Token} (before : Modifiers front)
    (word : String) (other : word ∉ "non" :: modifiers) (rest : List Token) :
    Java.afterModifiers (front ++ .ofWord word :: rest).length (front ++ .ofWord word :: rest) =
      .ofWord word :: rest :=
  before.afterModifiers (endsModifiers_ofWord rest other) (.inl (by simp)) (by simp)

theorem Modifiers.of_gap {gap : List Token} (layout : Gap gap) : Modifiers gap := by
  induction gap with
  | nil => exact .nil
  | cons token rest ih =>
    obtain ⟨first, behind⟩ := gap_cons_iff.mp layout
    exact .layout first (ih behind)

theorem exists_gap (tokens : List Token) : ∃ gap, Gap gap ∧ tokens = gap ++ skipLayout tokens :=
  ⟨tokens.takeWhile Token.isLayout, fun _ => List.mem_takeWhile_imp,
    List.takeWhile_append_dropWhile.symm⟩

theorem RecordStart.of_isRecordHeader {rest : List Token} {item : Item}
    (isHeader : Item.isRecordHeader rest = true)
    (read : Item.ofDeclaration? .record rest = some item) : RecordStart rest := by
  obtain ⟨before, layoutBefore, whole⟩ := exists_gap rest
  cases first : skipLayout rest with
  | nil => simp [Item.ofDeclaration?, first] at read
  | cons name more =>
    have isWord : name.isWord = true := by
      by_contra notWord
      simp [Item.ofDeclaration?, first, notWord] at read
    obtain ⟨behind, layoutBehind, wholeMore⟩ := exists_gap more
    cases second : skipLayout more with
    | nil => simp [Item.isRecordHeader, first, second] at isHeader
    | cons bracket last =>
      simp only [Item.isRecordHeader, first, List.drop_succ_cons, List.drop_zero, second,
        Bool.or_eq_true, Token.isMark_iff] at isHeader
      rw [whole, first, wholeMore, second]
      rcases isHeader with rfl | rfl
      · exact .components layoutBefore isWord layoutBehind
      · exact .parameters layoutBefore isWord layoutBehind

/-- Nothing is read from an entry that does not matter. -/
theorem Item.ofTokens?_eq_none {front rest : List Token} {token : Token}
    (before : Modifiers front) (ends : EndsModifiers token rest)
    (unannotated : Unannotated front token) (other : ¬ Starts token rest) :
    ofTokens? (front ++ token :: rest) = none := by
  have behind := before.afterModifiers ends unannotated
    (show front.length < (front ++ token :: rest).length by simp)
  have notAnnotated : token.kind ≠ .annotationType := fun same => other (.annotationType same)
  have notWord (word : String) (start : Starts (.ofWord word) rest) :
      token.isTheWord word = false := by
    rw [Bool.eq_false_iff, Ne, Token.isTheWord_iff]
    rintro rfl
    exact other start
  have notClass := notWord "class" (.declared .class nofun nofun)
  have notInterface := notWord "interface" (.declared .interface nofun nofun)
  have notEnumeration := notWord "enum" (.declared .enumeration nofun nofun)
  have notRecord : ¬ (token.isTheWord "record" && isRecordHeader rest) = true ∨
      ofDeclaration? .record rest = none := by
    by_contra both
    obtain ⟨isRecord, read⟩ := not_or.mp both
    rw [not_not, Bool.and_eq_true, Token.isTheWord_iff] at isRecord
    obtain ⟨item, read⟩ := Option.ne_none_iff_exists'.mp read
    exact other (isRecord.1 ▸ .record (.of_isRecordHeader isRecord.2 read))
  rw [ofTokens?, behind]
  simp only [notAnnotated, notWord "package" .package, notWord "import" .imported, notClass,
    notInterface, notEnumeration, Bool.false_eq_true, ↓reduceIte]
  exact ite_eq_right_iff.mpr fun isRecord => notRecord.resolve_left (not_not.mpr isRecord)

/-- An entry is read as the item that it is. -/
theorem Entry.ofTokens?_eq {tokens : List Token} {item : Option Item} (entry : Entry tokens item)
    (written : ∀ token ∈ tokens, token.text ≠ []) : Item.ofTokens? tokens = item := by
  cases entry with
  | package modifiers gap name behind =>
    rw [Item.ofTokens?, modifiers.afterModifiers_ofWord "package" (by decide)]
    simp [Token.isTheWord_ofWord, name.dottedName gap.isWord (ImportEnd.single behind).isWord]
  | @imported _ _ _ _ word _ before gap name notStatic behind =>
    have nonempty : word.text ≠ [] := written word (by simp)
    have path := name.dottedName gap.isWord behind.isWord
    have star := name.not_star
    rw [List.cons_append] at path
    rw [List.any_cons, Bool.or_eq_false_iff] at star
    rw [Item.ofTokens?, (Modifiers.of_gap before).afterModifiers_ofWord "import" (by decide)]
    simp [Token.isTheWord_ofWord, Item.ofImport?, path, star, notStatic, textOf, nonempty,
      gap.skipLayout_cons (Token.isLayout_of_isWord name.isWord_head), gap.not_star,
      behind.any_star]
  | static before gap rest =>
    rw [Item.ofTokens?, (Modifiers.of_gap before).afterModifiers_ofWord "import" (by decide)]
    simp [Token.isTheWord_ofWord, Item.ofImport?, gap.skipLayout_cons]
  | declared declares => exact declares.ofTokens?_eq
  | other before ends unannotated other _ =>
    exact Item.ofTokens?_eq_none before ends unannotated other

theorem Item.ofTokens?_of_gap {gap : List Token} (layout : Gap gap) : ofTokens? gap = none := by
  have none : afterModifiers gap.length gap = [] := by
    cases gap with
    | nil => rfl
    | cons token rest => simp [afterModifiers, layout.skipLayout]
  rw [ofTokens?, none]

/-! ### Reading units -/

theorem Sequence.items_append {tokens : List Token} {shown : List Item}
    (sequence : Sequence tokens shown) (written : ∀ token ∈ tokens, token.text ≠ [])
    (rest : List Token) :
    (items (tokens ++ rest)).filterMap Item.ofTokens? =
      shown ++ (items rest).filterMap Item.ofTokens? := by
  induction sequence with
  | nil => rfl
  | @entry tokens others item _ entry _ ih =>
    have first := entry.ofTokens?_eq fun token member => written token (by simp [member])
    have others := ih fun token member => written token (by simp [member])
    rw [List.append_assoc, entry.whole.items_append]
    cases item <;> simp [first, others]

/-- The items of a source text are those of its entries, in their order. -/
theorem Shows.items_eq {tokens : List Token} {shown : List Item} (shows : Shows tokens shown)
    (written : ∀ token ∈ tokens, token.text ≠ []) :
    (items tokens).filterMap Item.ofTokens? = shown := by
  obtain ⟨sequence, behind⟩ := shows
  rw [sequence.items_append fun token member => written token (by simp [member]),
    items_of_gap behind]
  simp [Item.ofTokens?_of_gap behind]

theorem Whole.exists_concat {tokens : List Token} (whole : Whole tokens) :
    ∃ front c, Alone c ∧ tokens = front ++ [.ofMark c] := by
  cases whole with
  | semicolon => exact ⟨_, _, by decide, rfl⟩
  | @block front inside => exact ⟨front ++ .ofMark '{' :: inside, '}', by decide, by simp⟩

theorem Whole.closed {tokens : List Token} (whole : Whole tokens) : Closed tokens := by
  obtain ⟨front, c, alone, rfl⟩ := whole.exists_concat
  exact .mark alone

theorem Whole.not_gap {tokens : List Token} (whole : Whole tokens) : ¬ Gap tokens := by
  obtain ⟨front, c, _, rfl⟩ := whole.exists_concat
  intro gap
  exact absurd (gap (.ofMark c) (by simp)) (by simp)

/-- Behind entries any text may follow. -/
theorem Sequence.closed {tokens : List Token} {items : List Item}
    (sequence : Sequence tokens items) : Closed tokens := by
  induction sequence with
  | nil => exact .nil
  | @entry tokens rest _ _ entry _ ih =>
    cases ih with
    | nil => simpa using entry.whole.closed
    | mark alone =>
      rw [← List.append_assoc]
      exact .mark alone

theorem Sequence.append {front back : List Token} {earlier later : List Item}
    (first : Sequence front earlier) (second : Sequence back later) :
    Sequence (front ++ back) (earlier ++ later) := by
  induction first with
  | nil => exact second
  | entry entry _ ih =>
    rw [List.append_assoc, List.append_assoc]
    exact .entry entry ih

/-- A blank text holds layout only. -/
theorem gap_tokens_of_allBlank {text : List Char} (blank : Text.allBlank text = true) :
    Gap (tokens text) := by
  induction text using tokens.induct with
  | case1 => simp [tokens, gap_nil]
  | case2 first rest kind count h ih =>
    simp only [Text.allBlank, List.all_cons, Bool.and_eq_true] at blank
    have layout : kind = .layout := by
      simpa [h] using congrArg Prod.fst (extent_of_isBlank blank.1 rest)
    have behind : Text.allBlank (rest.drop count) = true :=
      List.all_eq_true.mpr fun c member =>
        List.all_eq_true.mp blank.2 c (List.mem_of_mem_drop member)
    intro token member
    rw [tokens, h] at member
    rcases List.mem_cons.mp member with rfl | later
    · simp [Token.isLayout, layout]
    · exact ih behind token later

namespace Unit

theorem allBlank_withoutMark {text : List Char} (blank : Text.allBlank text = true) :
    Text.allBlank (withoutMark text) = true := by
  unfold withoutMark
  split
  · exact List.all_eq_true.mpr fun c member =>
      List.all_eq_true.mp blank c (List.mem_of_mem_tail member)
  · exact blank

/-- What is read from a source text are its items. -/
theorem ofText?_of_shows {source : String} {shown : List Item}
    (shows : Shows (tokens (withoutMark source.toList)) shown)
    (written : ¬ Gap (tokens (withoutMark source.toList))) :
    ofText? source = some (ofItems shown) := by
  have notBlank : ¬ Text.allBlank source.toList = true := fun blank =>
    written (gap_tokens_of_allBlank (allBlank_withoutMark blank))
  rw [ofText?, if_neg notBlank, shows.items_eq fun token => text_ne_nil_of_mem_tokens]

end Unit

end TypeLineage.Java
