import TypeLineage.Proofs.Java.Brackets
import Mathlib.Data.List.TakeWhile

/-!
# Modifiers and annotations

What may stand before the keyword of a declaration: layout, words like `public`, and annotations,
whose arguments are in parentheses. All of it is passed over, up to the first token that is none of
it (`Modifiers.afterModifiers`).
-/

namespace TypeLineage.Java

/-- Words with points between them, and layout anywhere between the two. -/
inductive QualifiedName : List Token → Prop
  | word {word : Token} : word.isWord = true → QualifiedName [word]
  | qualified {word : Token} {before behind rest : List Token} : word.isWord = true → Gap before →
    Gap behind → QualifiedName rest →
    QualifiedName (word :: (before ++ .ofMark '.' :: (behind ++ rest)))

/-- The arguments of an annotation, if it has any. -/
inductive Arguments : List Token → Prop
  | none : Arguments []
  | list {gap inside : List Token} : Gap gap → Balanced inside →
    Arguments (gap ++ .ofMark '(' :: (inside ++ [.ofMark ')']))

/-- An annotation. -/
inductive Annotation : List Token → Prop
  | written {gap name arguments : List Token} : Gap gap → QualifiedName name →
    Arguments arguments → Annotation (.ofMark '@' :: (gap ++ (name ++ arguments)))

/-- What may stand before the keyword of a declaration. -/
inductive Modifiers : List Token → Prop
  | nil : Modifiers []
  | layout {token : Token} {rest : List Token} : token.isLayout = true → Modifiers rest →
    Modifiers (token :: rest)
  | word {word : String} {rest : List Token} : word ∈ modifiers → Modifiers rest →
    Modifiers (.ofWord word :: rest)
  | nonSealed {rest : List Token} : Modifiers rest →
    Modifiers (.ofWord "non" :: .ofMark '-' :: .ofWord "sealed" :: rest)
  | annotated {annotated rest : List Token} : Annotation annotated → Modifiers rest →
    Modifiers (annotated ++ rest)

/-- Where modifiers end: at a token that belongs to none. -/
structure EndsModifiers (token : Token) (rest : List Token) : Prop where
  layout : token.isLayout = false
  annotated : token.isMark '@' = false
  word : ∀ word ∈ modifiers, token.isTheWord word = false
  nonSealed : token.isTheWord "non" = true →
    ∀ more, rest ≠ .ofMark '-' :: .ofWord "sealed" :: more

/-! ### Layout -/

section Layout

variable {gap rest : List Token} {token : Token}

theorem Gap.append {front back : List Token} (first : Gap front) (second : Gap back) :
    Gap (front ++ back) :=
  fun token member => (List.mem_append.mp member).elim (first token) (second token)

theorem Gap.reverse (layout : Gap gap) : Gap gap.reverse :=
  fun token member => layout token (List.mem_reverse.mp member)

theorem Gap.skipLayout_append (layout : Gap gap) (rest : List Token) :
    skipLayout (gap ++ rest) = skipLayout rest :=
  List.dropWhile_append_of_pos layout

theorem Gap.skipLayout (layout : Gap gap) : Java.skipLayout gap = [] :=
  List.dropWhile_eq_nil_iff.mpr layout

theorem skipLayout_cons (other : token.isLayout = false) (rest : List Token) :
    skipLayout (token :: rest) = token :: rest :=
  List.dropWhile_cons_of_neg (by simp [other])

theorem Gap.skipLayout_cons (layout : Gap gap) (other : token.isLayout = false)
    (rest : List Token) : Java.skipLayout (gap ++ token :: rest) = token :: rest := by
  rw [layout.skipLayout_append, Java.skipLayout_cons other]

end Layout

/-! ### Names -/

/-- A name starts with a word. -/
theorem QualifiedName.exists_cons {name : List Token} (qualified : QualifiedName name) :
    ∃ word rest, name = word :: rest ∧ word.isWord = true := by
  cases qualified with
  | word word => exact ⟨_, _, rfl, word⟩
  | qualified word _ _ _ => exact ⟨_, _, rfl, word⟩

theorem QualifiedName.ne_nil {name : List Token} (qualified : QualifiedName name) : name ≠ [] := by
  obtain ⟨word, rest, rfl, _⟩ := qualified.exists_cons
  exact List.cons_ne_nil word rest

theorem QualifiedName.inline {name : List Token} (qualified : QualifiedName name) :
    Inline name := by
  induction qualified with
  | word word => exact .word word .nil
  | qualified word before behind _ ih =>
    have point : Inline (.ofMark '.' :: _) :=
      .token (by decide) (by decide) ((Inline.of_gap behind).append ih)
    exact .word word ((Inline.of_gap before).append point)

theorem Annotation.inline {annotated : List Token} (written : Annotation annotated) :
    Inline annotated := by
  obtain ⟨gap, name, arguments⟩ := written
  refine .token (by decide) (by decide) ((Inline.of_gap gap).append (name.inline.append ?_))
  cases arguments with
  | none => exact .nil
  | list gap inside => exact (Inline.of_gap gap).append (.round inside .nil)

theorem Modifiers.inline {tokens : List Token} (before : Modifiers tokens) : Inline tokens := by
  induction before with
  | nil => exact .nil
  | layout layout _ ih => exact .layout layout ih
  | word _ _ ih => exact .word rfl ih
  | nonSealed _ ih => exact .word rfl (.token (by decide) (by decide) (.word rfl ih))
  | annotated annotated _ ih => exact annotated.inline.append ih

/-! ### Passing over modifiers -/

/-- Parentheses are passed over with all that they hold. -/
theorem Balanced.afterParentheses {inside : List Token} (balanced : Balanced inside) (depth : Nat)
    (rest : List Token) :
    afterParentheses (depth + 1) (inside ++ rest) = afterParentheses (depth + 1) rest := by
  induction balanced generalizing depth rest with
  | nil => rfl
  | token plain _ ih =>
    have opening := Token.isMark_of_not_isBracket plain (show '(' ∈ _ by decide)
    have closing := Token.isMark_of_not_isBracket plain (show ')' ∈ _ by decide)
    rw [List.cons_append, Java.afterParentheses, opening, closing]
    exact ih depth rest
  | group paired _ _ inside ih =>
    cases paired with
    | round | square | curly => simp [Java.afterParentheses, inside, ih]

/-- What comes next, behind layout. -/
def Next (tokens : List Token) (token : Token) : Prop :=
  ∃ more, skipLayout tokens = token :: more

theorem Next.layout {gap tokens : List Token} {token : Token} (next : Next tokens token)
    (layout : Gap gap) : Next (gap ++ tokens) token := by
  simpa only [Next, layout.skipLayout_append] using next

theorem next_cons {token : Token} (other : token.isLayout = false) (rest : List Token) :
    Next (token :: rest) token :=
  ⟨rest, skipLayout_cons other rest⟩

section Annotations

variable {rest : List Token} {next : Token}

theorem afterArguments_of_next (found : Next rest next) (other : next.isMark '(' = false) :
    afterArguments rest = rest := by
  obtain ⟨more, skipped⟩ := found
  simp [afterArguments, skipped, other]

theorem Arguments.afterArguments {arguments : List Token} (written : Arguments arguments)
    (found : Next rest next) (other : next.isMark '(' = false) :
    afterArguments (arguments ++ rest) = rest := by
  cases written with
  | none => exact afterArguments_of_next found other
  | @list gap inside layout balanced =>
    have skipped := layout.skipLayout_cons (Token.isLayout_ofMark '(')
      (inside ++ .ofMark ')' :: rest)
    simp [Java.afterArguments, skipped, balanced.afterParentheses, afterParentheses]

/-- Behind the name of an annotation come its arguments. -/
theorem QualifiedName.afterAnnotationName {name gap : List Token} {steps : Nat}
    (qualified : QualifiedName name) (layout : Gap gap) (enough : name.length ≤ steps)
    (found : Next rest next) (other : next.isMark '.' = false) :
    afterAnnotationName steps (gap ++ (name ++ rest)) = afterArguments rest := by
  induction qualified generalizing gap steps with
  | @word word isWord =>
    obtain ⟨steps, rfl⟩ := Nat.exists_eq_add_of_le' enough
    obtain ⟨more, skipped⟩ := found
    have first := layout.skipLayout_cons (Token.isLayout_of_isWord isWord) rest
    simp [Java.afterAnnotationName, first, isWord, skipped, other]
  | @qualified word before behind name isWord layoutBefore layoutBehind _ ih =>
    simp only [List.length_cons, List.length_append] at enough
    obtain ⟨steps, rfl⟩ := Nat.exists_eq_succ_of_ne_zero (show steps ≠ 0 by omega)
    have first := layout.skipLayout_cons (Token.isLayout_of_isWord isWord)
      (before ++ .ofMark '.' :: (behind ++ (name ++ rest)))
    have second := layoutBefore.skipLayout_cons (Token.isLayout_ofMark '.')
      (behind ++ (name ++ rest))
    have behindPoint := @ih behind steps layoutBehind (by omega)
    simpa [Java.afterAnnotationName, first, isWord, second] using behindPoint

/-- An annotation is passed over, when its first mark has been read. -/
theorem afterAnnotationName_append {gap name arguments : List Token} (layout : Gap gap)
    (qualified : QualifiedName name) (written : Arguments arguments) (found : Next rest next)
    (point : next.isMark '.' = false) (parenthesis : next.isMark '(' = false) :
    let tokens := gap ++ (name ++ (arguments ++ rest))
    afterAnnotationName tokens.length tokens = rest := by
  intro tokens
  have enough : name.length ≤ tokens.length := by
    simp only [tokens, List.length_append]
    omega
  have arguments' : ∃ next', Next (arguments ++ rest) next' ∧ next'.isMark '.' = false := by
    cases written with
    | none => exact ⟨next, found, point⟩
    | list layout _ =>
      refine ⟨.ofMark '(', ?_, by decide⟩
      simpa using (next_cons (Token.isLayout_ofMark '(') _).layout layout
  obtain ⟨next', found', point'⟩ := arguments'
  rw [qualified.afterAnnotationName layout enough found' point',
    written.afterArguments found parenthesis]

end Annotations

section

variable {tokens rest : List Token} {token : Token}

/-- Modifiers are followed by another modifier or by what they belong to, so never by something that
an annotation could go on with. -/
theorem Modifiers.exists_next (before : Modifiers tokens) (rest : List Token)
    (other : token.isLayout = false) (point : token.isMark '.' = false)
    (parenthesis : token.isMark '(' = false) :
    ∃ next, Next (tokens ++ token :: rest) next ∧ next.isMark '.' = false ∧
      next.isMark '(' = false := by
  induction before with
  | nil => exact ⟨token, next_cons other rest, point, parenthesis⟩
  | layout layout _ ih =>
    obtain ⟨next, found, notOther⟩ := ih
    exact ⟨next, found.layout (gap_singleton layout), notOther⟩
  | word _ _ _ => exact ⟨_, next_cons (Token.isLayout_ofWord _) _, by simp, by simp⟩
  | nonSealed _ _ => exact ⟨_, next_cons (Token.isLayout_ofWord _) _, by simp, by simp⟩
  | annotated annotated _ _ =>
    cases annotated with
    | written => exact ⟨_, next_cons (Token.isLayout_ofMark '@') _, by simp, by simp⟩

/-- An annotation may go on with a parenthesis or a point, so there is none before these. -/
def Unannotated (tokens : List Token) (token : Token) : Prop :=
  (token.isMark '.' = false ∧ token.isMark '(' = false) ∨
    ∀ other ∈ tokens, other.isMark '@' = false

theorem EndsModifiers.afterModifiers (ends : EndsModifiers token rest) (steps : Nat) :
    afterModifiers (steps + 1) (token :: rest) = token :: rest := by
  have word : modifiers.any token.isTheWord = false := by
    simpa using ends.word
  rw [Java.afterModifiers, skipLayout_cons ends.layout]
  simp only [ends.annotated, word, Bool.false_eq_true, ↓reduceIte]
  split_ifs with non
  · split
    · rename_i dash last more
      have notSealed : ¬ (dash.isMark '-' && last.isTheWord "sealed") = true := by
        rw [Bool.and_eq_true, Token.isMark_iff, Token.isTheWord_iff]
        rintro ⟨rfl, rfl⟩
        exact ends.nonSealed non more rfl
      rw [if_neg notSealed]
    · rfl
  · rfl

theorem afterModifiers_layout {first : Token} (layout : first.isLayout = true) (steps : Nat)
    (rest : List Token) :
    afterModifiers (steps + 1) (first :: rest) = afterModifiers (steps + 1) rest := by
  simp [afterModifiers, skipLayout, layout]

theorem afterModifiers_word {word : String} (member : word ∈ modifiers) (steps : Nat)
    (rest : List Token) :
    afterModifiers (steps + 1) (.ofWord word :: rest) = afterModifiers steps rest := by
  have found : modifiers.any (Token.ofWord word).isTheWord = true :=
    List.any_eq_true.mpr ⟨word, member, by simp [Token.isTheWord_ofWord]⟩
  simp [afterModifiers, skipLayout_cons, found]

theorem afterModifiers_nonSealed (steps : Nat) (rest : List Token) :
    afterModifiers (steps + 1) (.ofWord "non" :: .ofMark '-' :: .ofWord "sealed" :: rest) =
      afterModifiers steps rest := by
  have notFound : modifiers.any (Token.ofWord "non").isTheWord = false := by decide
  simp [afterModifiers, skipLayout_cons, notFound, Token.isTheWord_ofWord]

theorem Annotation.afterModifiers {annotated rest : List Token} {next : Token}
    (written : Annotation annotated) (found : Next rest next) (point : next.isMark '.' = false)
    (parenthesis : next.isMark '(' = false) (steps : Nat) :
    afterModifiers (steps + 1) (annotated ++ rest) = afterModifiers steps rest := by
  obtain ⟨layout, name, arguments⟩ := written
  have passed := afterAnnotationName_append layout name arguments found point parenthesis
  simp only [List.cons_append, List.append_assoc, Java.afterModifiers,
    skipLayout_cons (Token.isLayout_ofMark '@'), Token.isMark_ofMark, passed]
  simp

theorem Unannotated.tail (front : List Token) (unannotated : Unannotated (front ++ tokens) token) :
    Unannotated tokens token :=
  unannotated.imp_right fun none other member => none other (List.mem_append_right front member)

/-- Modifiers are passed over. -/
theorem Modifiers.afterModifiers (before : Modifiers tokens) (ends : EndsModifiers token rest)
    (unannotated : Unannotated tokens token) {steps : Nat} (enough : tokens.length < steps) :
    afterModifiers steps (tokens ++ token :: rest) = token :: rest := by
  induction before generalizing steps with
  | nil =>
    obtain ⟨steps, rfl⟩ := Nat.exists_eq_succ_of_ne_zero (Nat.ne_zero_of_lt enough)
    exact ends.afterModifiers steps
  | @layout first tokens layout _ ih =>
    obtain ⟨steps, rfl⟩ := Nat.exists_eq_succ_of_ne_zero (Nat.ne_zero_of_lt enough)
    rw [List.cons_append, afterModifiers_layout layout]
    exact ih (unannotated.tail [first]) (Nat.lt_of_succ_lt enough)
  | @word word tokens member _ ih =>
    obtain ⟨steps, rfl⟩ := Nat.exists_eq_succ_of_ne_zero (Nat.ne_zero_of_lt enough)
    rw [List.cons_append, afterModifiers_word member]
    exact ih (unannotated.tail [.ofWord word]) (Nat.lt_of_succ_lt_succ enough)
  | @nonSealed tokens _ ih =>
    obtain ⟨steps, rfl⟩ := Nat.exists_eq_succ_of_ne_zero (Nat.ne_zero_of_lt enough)
    simp only [List.cons_append, afterModifiers_nonSealed]
    simp only [List.length_cons] at enough
    exact ih (unannotated.tail [_, _, _]) (by omega)
  | @annotated annotated tokens written modifiers ih =>
    obtain ⟨steps, rfl⟩ := Nat.exists_eq_succ_of_ne_zero (Nat.ne_zero_of_lt enough)
    have started : ∃ mark ∈ annotated, mark.isMark '@' = true := by
      cases written with
      | written => exact ⟨_, List.mem_cons_self, by simp⟩
    obtain ⟨point, parenthesis⟩ : token.isMark '.' = false ∧ token.isMark '(' = false := by
      refine unannotated.resolve_right fun none => ?_
      obtain ⟨mark, member, isMark⟩ := started
      simp [none mark (List.mem_append_left tokens member)] at isMark
    obtain ⟨next, found, point', parenthesis'⟩ :=
      modifiers.exists_next rest ends.layout point parenthesis
    rw [List.append_assoc, written.afterModifiers found point' parenthesis']
    have shorter : 0 < annotated.length := by
      obtain ⟨mark, member, _⟩ := started
      exact List.length_pos_of_mem member
    rw [List.length_append] at enough
    exact ih (unannotated.tail annotated) (by omega)

end

end TypeLineage.Java
