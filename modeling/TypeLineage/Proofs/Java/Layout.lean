import TypeLineage.Proofs.Java.Extraction

/-!
# Layout between tokens

Layout may stand between any two tokens, and readers pass over it: what a reader leaves, and what it
says of its tokens, is told by the tokens that are not layout (`visible`). Brackets, modifiers,
annotations and headers are read from these alone.

There is one exception. In front of a declaration `non-sealed` counts as a modifier, but only if it
is written without layout. Where it is not, the reading of modifiers stops, and nothing is declared
(`divided`).
-/

namespace TypeLineage.Java

/-- The tokens that are not layout. -/
def visible (tokens : List Token) : List Token :=
  tokens.filter fun token => !token.isLayout

section Visible

variable {token : Token} {front back tokens : List Token}

@[simp] theorem visible_nil : visible [] = [] := rfl

theorem visible_cons_of_layout (layout : token.isLayout = true) (rest : List Token) :
    visible (token :: rest) = visible rest :=
  List.filter_cons_of_neg (by simp [layout])

theorem visible_cons (other : token.isLayout = false) (rest : List Token) :
    visible (token :: rest) = token :: visible rest :=
  List.filter_cons_of_pos (by simp [other])

@[simp] theorem visible_append (front back : List Token) :
    visible (front ++ back) = visible front ++ visible back :=
  List.filter_append front back

@[simp] theorem visible_reverse (tokens : List Token) :
    visible tokens.reverse = (visible tokens).reverse :=
  List.filter_reverse

theorem isLayout_of_mem_visible (member : token ∈ visible tokens) : token.isLayout = false := by
  simpa using (List.mem_filter.mp member).2

theorem visible_eq_self (none : ∀ token ∈ tokens, token.isLayout = false) :
    visible tokens = tokens :=
  List.filter_eq_self.mpr fun token member => by simp [none token member]

/-- Passing over a kind of tokens to which layout belongs takes nothing else away. -/
theorem visible_dropWhile {passed : Token → Bool}
    (layout : ∀ token : Token, token.isLayout = true → passed token = true) (tokens : List Token) :
    visible (tokens.dropWhile passed) = (visible tokens).dropWhile passed := by
  induction tokens with
  | nil => rfl
  | cons token rest ih =>
    cases isLayout : token.isLayout with
    | true =>
      rw [List.dropWhile_cons_of_pos (layout token isLayout), visible_cons_of_layout isLayout, ih]
    | false =>
      rw [visible_cons isLayout]
      by_cases holds : passed token
      · rw [List.dropWhile_cons_of_pos holds, List.dropWhile_cons_of_pos holds, ih]
      · rw [List.dropWhile_cons_of_neg holds, List.dropWhile_cons_of_neg holds, visible_cons isLayout]

/-- Visible tokens do not start with layout. -/
theorem skipLayout_visible (tokens : List Token) :
    skipLayout (visible tokens) = visible tokens := by
  cases first : visible tokens with
  | nil => rfl
  | cons token rest =>
    have member : token ∈ visible tokens := by rw [first]; exact List.mem_cons_self
    exact skipLayout_cons (isLayout_of_mem_visible member) rest

@[simp] theorem visible_skipLayout (tokens : List Token) :
    visible (skipLayout tokens) = visible tokens := by
  rw [skipLayout, visible_dropWhile fun _ layout => layout]
  exact skipLayout_visible tokens

/-- Behind layout there is nothing, or the first visible token. -/
theorem skipLayout_cases (tokens : List Token) :
    skipLayout tokens = [] ∧ visible tokens = [] ∨
      ∃ token rest, skipLayout tokens = token :: rest ∧ token.isLayout = false ∧
        visible tokens = token :: visible rest := by
  have same := visible_skipLayout tokens
  cases skipped : skipLayout tokens with
  | nil => exact .inl ⟨rfl, by rw [← same, skipped, visible_nil]⟩
  | cons token rest =>
    have other : token.isLayout = false := by
      have first : (tokens.dropWhile Token.isLayout).head? = some token := by
        rw [← skipLayout, skipped, List.head?_cons]
      exact Text.head_dropWhile_not first
    exact .inr ⟨token, rest, rfl, other, by rw [← same, skipped, visible_cons other]⟩

end Visible

/-! ### Brackets -/

theorem itemsFrom_visible (depth : Nat) (current tokens : List Token) :
    itemsFrom depth (visible current) (visible tokens) =
      (itemsFrom depth current tokens).map visible := by
  induction tokens generalizing depth current with
  | nil => simp [itemsFrom]
  | cons token rest ih =>
    cases layout : token.isLayout with
    | true =>
      have plain : token.isBracket = false :=
        Token.isBracket_of_not_mark (Token.isMark_of_isLayout layout)
      rw [visible_cons_of_layout layout,
        itemsFrom_of_not_isBracket plain (.inl (Token.isMark_of_isLayout layout ';')), ← ih,
        visible_cons_of_layout layout]
    | false =>
      have more (depth : Nat) := ih depth (token :: current)
      simp only [visible_cons layout] at more ⊢
      simp only [itemsFrom]
      split_ifs
      · exact more (depth + 1)
      · rw [List.map_cons, ← ih 0 [], visible_reverse, visible_cons layout, visible_nil]
      · exact more (depth - 1)
      · exact more depth

/-- The items of the visible tokens are what is visible of the items. -/
theorem items_visible (tokens : List Token) : items (visible tokens) = (items tokens).map visible :=
  itemsFrom_visible 0 [] tokens

theorem visible_afterParentheses (depth : Nat) (tokens : List Token) :
    visible (afterParentheses depth tokens) = afterParentheses depth (visible tokens) := by
  induction tokens generalizing depth with
  | nil => cases depth <;> simp [afterParentheses]
  | cons token rest ih =>
    cases depth with
    | zero => simp [afterParentheses]
    | succ depth =>
      cases layout : token.isLayout with
      | true =>
        rw [visible_cons_of_layout layout, ← ih, afterParentheses]
        simp [Token.isMark_of_isLayout layout]
      | false =>
        rw [visible_cons layout, afterParentheses, afterParentheses]
        split_ifs <;> exact ih _

theorem beforeBody_visible (parentheses : Nat) (tokens : List Token) :
    beforeBody parentheses (visible tokens) = visible (beforeBody parentheses tokens) := by
  induction tokens generalizing parentheses with
  | nil => rfl
  | cons token rest ih =>
    cases layout : token.isLayout with
    | true =>
      rw [visible_cons_of_layout layout, ih, beforeBody]
      simp [Token.isMark_of_isLayout layout, visible_cons_of_layout layout]
    | false =>
      rw [visible_cons layout, beforeBody, beforeBody]
      split_ifs <;> simp [visible_cons layout, ih]

theorem visible_afterArguments (tokens : List Token) :
    visible (afterArguments tokens) = afterArguments (visible tokens) := by
  rw [afterArguments, afterArguments, skipLayout_visible]
  rcases skipLayout_cases tokens with ⟨skipped, none⟩ | ⟨token, rest, skipped, -, first⟩
  · rw [skipped, none]
    rfl
  · simp only [skipped, first]
    split_ifs
    · exact visible_afterParentheses 1 rest
    · exact first

/-! ### Readers leave an end of their tokens -/

theorem skipLayout_suffix (tokens : List Token) : skipLayout tokens <:+ tokens :=
  List.dropWhile_suffix _

theorem suffix_of_skipLayout {tokens rest : List Token} {token : Token}
    (skipped : skipLayout tokens = token :: rest) : rest <:+ tokens :=
  (List.suffix_cons token rest).trans (skipped ▸ skipLayout_suffix tokens)

theorem length_lt_of_skipLayout {tokens rest : List Token} {token : Token}
    (skipped : skipLayout tokens = token :: rest) : rest.length < tokens.length :=
  (skipped ▸ skipLayout_suffix tokens).length_le

theorem afterParentheses_suffix (depth : Nat) (tokens : List Token) :
    afterParentheses depth tokens <:+ tokens := by
  induction tokens generalizing depth with
  | nil => cases depth <;> simp [afterParentheses]
  | cons token rest ih =>
    cases depth with
    | zero => simp [afterParentheses]
    | succ depth =>
      rw [afterParentheses]
      split_ifs <;> exact (ih _).trans (List.suffix_cons token rest)

theorem afterArguments_suffix (tokens : List Token) : afterArguments tokens <:+ tokens := by
  rw [afterArguments]
  split
  case h_1 token rest skipped =>
    split_ifs
    · exact (afterParentheses_suffix 1 rest).trans (suffix_of_skipLayout skipped)
    · exact List.suffix_rfl
  case h_2 => exact List.nil_suffix

theorem afterAnnotationName_suffix (steps : Nat) (tokens : List Token) :
    afterAnnotationName steps tokens <:+ tokens := by
  induction steps generalizing tokens with
  | zero => exact List.suffix_rfl
  | succ steps ih =>
    rw [afterAnnotationName]
    split
    case h_1 => exact List.nil_suffix
    case h_2 word rest skipped =>
      split_ifs
      · split
        case h_1 point more skippedMore =>
          have behind : more <:+ tokens :=
            (suffix_of_skipLayout skippedMore).trans (suffix_of_skipLayout skipped)
          split_ifs
          · exact (ih more).trans behind
          · exact (afterArguments_suffix rest).trans (suffix_of_skipLayout skipped)
        case h_2 => exact List.nil_suffix
      · exact skipped ▸ skipLayout_suffix tokens

theorem afterModifiers_suffix (steps : Nat) (tokens : List Token) :
    afterModifiers steps tokens <:+ tokens := by
  induction steps generalizing tokens with
  | zero => exact List.suffix_rfl
  | succ steps ih =>
    rw [afterModifiers]
    split
    case h_1 => exact List.nil_suffix
    case h_2 token rest skipped =>
      have whole : token :: rest <:+ tokens := skipped ▸ skipLayout_suffix tokens
      have behind : rest <:+ tokens := suffix_of_skipLayout skipped
      split_ifs
      · exact (ih _).trans ((afterAnnotationName_suffix _ rest).trans behind)
      · exact (ih rest).trans behind
      · split
        case h_1 dash last more =>
          split_ifs
          · refine (ih more).trans (.trans ?_ behind)
            exact (List.suffix_cons last more).trans (List.suffix_cons dash _)
          · exact whole
        case h_2 => exact whole
      · exact whole

/-! ### Modifiers and annotations -/

/-- The name of an annotation may have layout in it. Each side has steps enough for its own tokens. -/
theorem visible_afterAnnotationName {steps less : Nat} {tokens : List Token}
    (enough : tokens.length ≤ steps) (enough' : (visible tokens).length ≤ less) :
    visible (afterAnnotationName steps tokens) = afterAnnotationName less (visible tokens) := by
  induction steps generalizing less tokens with
  | zero =>
    obtain rfl := List.eq_nil_of_length_eq_zero (Nat.le_zero.mp enough)
    cases less <;> rfl
  | succ steps ih =>
    rcases skipLayout_cases tokens with ⟨skipped, none⟩ | ⟨word, rest, skipped, other, first⟩
    · rw [none, afterAnnotationName, skipped]
      cases less <;> rfl
    · have shorter := length_lt_of_skipLayout skipped
      rw [first, List.length_cons] at enough'
      obtain ⟨less, rfl⟩ := Nat.exists_eq_succ_of_ne_zero (Nat.ne_zero_of_lt enough')
      have again : skipLayout (word :: visible rest) = word :: visible rest :=
        skipLayout_cons other _
      rw [first, afterAnnotationName, afterAnnotationName, skipped, again]
      simp only
      split_ifs with isWord
      · rw [skipLayout_visible]
        rcases skipLayout_cases rest with
          ⟨skippedMore, none⟩ | ⟨point, more, skippedMore, -, second⟩
        · rw [skippedMore, none]
          rfl
        · have shorterMore := length_lt_of_skipLayout skippedMore
          rw [skippedMore, second]
          rw [second, List.length_cons] at enough'
          simp only
          split_ifs
          · exact ih (by omega) (by omega)
          · rw [visible_afterArguments, second]
      · exact visible_cons other rest

/-- Whether `sealed` comes next, behind a dash. -/
def dashSealed : List Token → Bool
  | dash :: last :: _ => dash.isMark '-' && last.isTheWord "sealed"
  | _ => false

/-- Whether tokens go on with `non-sealed`, with or without layout in it. -/
def nonSealed : List Token → Bool
  | first :: rest => first.isTheWord "non" && dashSealed (visible rest)
  | [] => false

/-- Whether an item has a `non-sealed` with layout in it where a modifier may stand. -/
def divided (item : List Token) : Bool :=
  nonSealed (afterModifiers item.length item)

/-- A dash and `sealed` without layout between them are visible as they are. -/
theorem dashSealed_visible {tokens : List Token} (sealed : dashSealed tokens = true) :
    dashSealed (visible tokens) = true ∧ visible (tokens.drop 2) = (visible tokens).drop 2 := by
  match tokens with
  | dash :: last :: more =>
    rw [dashSealed, Bool.and_eq_true, Token.isMark_iff, Token.isTheWord_iff] at sealed
    obtain ⟨rfl, rfl⟩ := sealed
    rw [visible_cons (Token.isLayout_ofMark '-'), visible_cons (Token.isLayout_ofWord _)]
    simp [dashSealed, Token.isTheWord_ofWord]

/-- The modifier `non-sealed` is read where it is written without layout. -/
theorem afterModifiers_non {tokens rest : List Token} (steps : Nat)
    (skipped : skipLayout tokens = .ofWord "non" :: rest) :
    afterModifiers (steps + 1) tokens =
      if dashSealed rest then afterModifiers steps (rest.drop 2) else .ofWord "non" :: rest := by
  have notModifier : modifiers.any (Token.ofWord "non").isTheWord = false := by decide
  rw [afterModifiers, skipped]
  cases rest with
  | nil => simp [notModifier, dashSealed]
  | cons dash rest =>
    cases rest with
    | nil => simp [notModifier, dashSealed]
    | cons last more => simp [notModifier, dashSealed, Token.isTheWord_ofWord]

/-- What modifiers leave is told by the visible tokens, unless there is a divided one. -/
theorem visible_afterModifiers {steps less : Nat} {tokens : List Token}
    (enough : tokens.length ≤ steps) (enough' : (visible tokens).length ≤ less)
    (whole : nonSealed (afterModifiers steps tokens) = false) :
    visible (afterModifiers steps tokens) = afterModifiers less (visible tokens) := by
  induction steps generalizing less tokens with
  | zero =>
    obtain rfl := List.eq_nil_of_length_eq_zero (Nat.le_zero.mp enough)
    cases less <;> rfl
  | succ steps ih =>
    rcases skipLayout_cases tokens with ⟨skipped, none⟩ | ⟨token, rest, skipped, other, first⟩
    · rw [none, afterModifiers, skipped]
      cases less <;> rfl
    · have shorter := length_lt_of_skipLayout skipped
      rw [first, List.length_cons] at enough'
      obtain ⟨less, rfl⟩ := Nat.exists_eq_succ_of_ne_zero (Nat.ne_zero_of_lt enough')
      have again : skipLayout (token :: visible rest) = token :: visible rest :=
        skipLayout_cons other _
      rw [first]
      by_cases non : token.isTheWord "non" = true
      · obtain rfl := Token.isTheWord_iff.mp non
        rw [afterModifiers_non steps skipped] at whole ⊢
        rw [afterModifiers_non less again]
        cases sealed : dashSealed rest with
        | true =>
          obtain ⟨sealed', behind⟩ := dashSealed_visible sealed
          rw [sealed, if_pos rfl] at whole
          rw [if_pos rfl, if_pos sealed', ← behind]
          refine ih ?_ ?_ whole
          · rw [List.length_drop]
            omega
          · rw [behind, List.length_drop]
            omega
        | false =>
          -- It stops here, and there is no layout in between, or else it would be divided.
          rw [sealed, if_neg (by simp)] at whole
          have apart : dashSealed (visible rest) = false := by
            simpa [nonSealed, Token.isTheWord_ofWord] using whole
          rw [if_neg (by simp), if_neg (by simp [apart]), visible_cons other]
      · rw [afterModifiers, skipped] at whole
        rw [afterModifiers, afterModifiers, skipped, again]
        simp only [if_neg non] at whole ⊢
        split_ifs at whole ⊢ with annotated modifier
        · have same :=
            visible_afterAnnotationName (le_refl rest.length) (le_refl (visible rest).length)
          have shorterName := (afterAnnotationName_suffix rest.length rest).length_le
          have shorterName' :=
            (afterAnnotationName_suffix (visible rest).length (visible rest)).length_le
          rw [← same] at shorterName' ⊢
          exact ih (by omega) (by omega) whole
        · exact ih (by omega) (by omega) whole
        · exact visible_cons other rest

/-- What modifiers leave does not start with layout. -/
theorem isLayout_of_afterModifiers {steps : Nat} {tokens rest : List Token} {token : Token}
    (enough : tokens.length ≤ steps) (left : afterModifiers steps tokens = token :: rest) :
    token.isLayout = false := by
  induction steps generalizing tokens with
  | zero =>
    obtain rfl := List.eq_nil_of_length_eq_zero (Nat.le_zero.mp enough)
    cases left
  | succ steps ih =>
    rcases skipLayout_cases tokens with ⟨skipped, -⟩ | ⟨first, more, skipped, other, -⟩
    · rw [afterModifiers, skipped] at left
      cases left
    · have shorter := length_lt_of_skipLayout skipped
      by_cases non : first.isTheWord "non" = true
      · obtain rfl := Token.isTheWord_iff.mp non
        rw [afterModifiers_non steps skipped] at left
        split_ifs at left
        · exact ih (by rw [List.length_drop]; omega) left
        · cases left
          exact other
      · rw [afterModifiers, skipped] at left
        simp only [if_neg non] at left
        split_ifs at left
        · have shorterName := (afterAnnotationName_suffix more.length more).length_le
          exact ih (by omega) left
        · exact ih (by omega) left
        · cases left
          exact other

/-! ### Headers -/

theorem bare_append_congr {back other : List Char} (same : bare back = bare other)
    (front : List Char) : bare (front ++ back) = bare (front ++ other) := by
  induction front with
  | nil => exact same
  | cons c rest ih =>
    by_cases less : c = '<'
    · rw [less, List.cons_append, List.cons_append, bare_less, bare_less]
    · cases blank : Text.isBlank c with
      | true =>
        have single : ∀ d ∈ [c], Text.isBlank d = true := by simpa using blank
        have first := bare_append_of_blank single (rest ++ back)
        have second := bare_append_of_blank single (rest ++ other)
        rw [List.cons_append, List.cons_append]
        exact first.trans (ih.trans second.symm)
      | false =>
        rw [List.cons_append, List.cons_append, bare_cons less blank, bare_cons less blank, ih]

theorem uncommented_visible (tokens : List Token) : Uncommented (visible tokens) := by
  intro token member layout
  rw [isLayout_of_mem_visible member] at layout
  cases layout

theorem uncommented_cons {token : Token} {rest : List Token} :
    Uncommented (token :: rest) ↔
      (token.isLayout = true → ∀ c ∈ token.text, Text.isBlank c = true) ∧ Uncommented rest :=
  List.forall_mem_cons

theorem Uncommented.mono {tokens others : List Token} (blank : Uncommented tokens)
    (among : others ⊆ tokens) : Uncommented others :=
  fun token member => blank token (among member)

theorem bare_visible {tokens : List Token} (blank : Uncommented tokens) :
    bare ((visible tokens).flatMap Token.text) = bare (tokens.flatMap Token.text) := by
  induction tokens with
  | nil => rfl
  | cons token rest ih =>
    obtain ⟨first, behind⟩ := uncommented_cons.mp blank
    cases layout : token.isLayout with
    | true =>
      rw [visible_cons_of_layout layout, ih behind, List.flatMap_cons,
        bare_append_of_blank (first layout)]
    | false =>
      rw [visible_cons layout, List.flatMap_cons, List.flatMap_cons]
      exact bare_append_congr (ih behind) token.text

/-- Layout that is blank does not show in the text of a type. -/
theorem writtenType_visible {tokens : List Token} (blank : Uncommented tokens) :
    writtenType (visible tokens) = writtenType tokens := by
  rw [writtenType_eq_bare (uncommented_visible tokens), writtenType_eq_bare blank,
    bare_visible blank]

namespace HeaderState

variable {kind : TypeKind} {state : HeaderState} {token : Token}

/-- The state of a reader that has not been shown any layout. -/
def unlaid (state : HeaderState) : HeaderState :=
  { state with current := visible state.current }

@[simp] theorem unlaid_awaited : state.unlaid.awaited = state.awaited := rfl

@[simp] theorem unlaid_parentheses : state.unlaid.parentheses = state.parentheses := rfl

@[simp] theorem unlaid_angles : state.unlaid.angles = state.angles := rfl

theorem unlaid_keep (other : token.isLayout = false) :
    (state.keep token).unlaid = state.unlaid.keep token := by
  simp [unlaid, keep, visible_cons other]

theorem unlaid_keep_of_layout (layout : token.isLayout = true) :
    (state.keep token).unlaid = state.unlaid := by
  simp [unlaid, keep, visible_cons_of_layout layout]

theorem read_of_layout (layout : token.isLayout = true) :
    state.read kind token = state.keep token := by
  have mark := Token.isMark_of_isLayout layout
  have word := Token.isWord_of_isLayout layout
  simp only [read, readOpen, mark, word, keep, Bool.false_eq_true, ↓reduceIte, ite_self]

theorem unlaid_endType (blank : Uncommented state.current) :
    state.endType.unlaid = state.unlaid.endType := by
  have text : writtenType (visible state.current).reverse = writtenType state.current.reverse := by
    rw [← visible_reverse]
    exact writtenType_visible (blank.mono fun token member => List.mem_reverse.mp member)
  unfold endType unlaid
  cases state.clause <;> simp [text]

theorem unlaid_readWord (other : token.isLayout = false) (blank : Uncommented state.current) :
    (state.readWord kind token).unlaid = state.unlaid.readWord kind token := by
  have kept : (state.keep token).unlaid = state.unlaid.keep token := unlaid_keep other
  unfold readWord
  rw [unlaid_awaited, ← kept, ← unlaid_endType blank]
  cases state.awaited with
  | annotationName | name => rfl
  | keyword => cases Clause.ofKeyword? kind token.text <;> rfl

theorem unlaid_readOpen (other : token.isLayout = false) (blank : Uncommented state.current) :
    (state.readOpen kind token).unlaid = state.unlaid.readOpen kind token := by
  have kept : (state.keep token).unlaid = state.unlaid.keep token := unlaid_keep other
  unfold readOpen
  rw [unlaid_awaited, ← kept, ← unlaid_endType blank, ← unlaid_readWord other blank]
  simp only [apply_ite unlaid]
  rfl

/-- Where all layout is blank, a token that is none is read as if none had been there. -/
theorem unlaid_read (other : token.isLayout = false) (blank : Uncommented state.current) :
    (state.read kind token).unlaid = state.unlaid.read kind token := by
  have kept : (state.keep token).unlaid = state.unlaid.keep token := unlaid_keep other
  unfold read
  rw [unlaid_parentheses, unlaid_angles, ← kept, ← unlaid_readOpen other blank]
  simp only [apply_ite unlaid]
  rfl

/-- A token is kept, or ends a type. -/
theorem current_read (kind : TypeKind) (state : HeaderState) (token : Token) :
    (state.read kind token).current ⊆ token :: state.current := by
  have kept : (state.keep token).current ⊆ token :: state.current := List.Subset.refl _
  have ended : state.endType.current ⊆ token :: state.current := by
    unfold endType
    cases state.clause <;> exact List.nil_subset _
  have word : (state.readWord kind token).current ⊆ token :: state.current := by
    unfold readWord
    cases state.awaited with
    | annotationName | name => exact kept
    | keyword =>
      cases Clause.ofKeyword? kind token.text with
      | none => exact kept
      | some clause => exact ended
  have outside : (state.readOpen kind token).current ⊆ token :: state.current := by
    unfold readOpen
    repeat' split
    all_goals first | exact kept | exact ended | exact word
  unfold read
  repeat' split
  all_goals first | exact kept | exact outside

/-- The reading of a header is told by its visible tokens, where all layout is blank. -/
theorem unlaid_foldl_read {tokens : List Token} (blank : Uncommented tokens)
    (before : Uncommented state.current) :
    (tokens.foldl (read kind) state).unlaid = (visible tokens).foldl (read kind) state.unlaid ∧
      Uncommented (tokens.foldl (read kind) state).current := by
  induction tokens generalizing state with
  | nil => exact ⟨rfl, before⟩
  | cons token rest ih =>
    obtain ⟨first, behind⟩ := uncommented_cons.mp blank
    have next : Uncommented (state.read kind token).current :=
      (uncommented_cons.mpr ⟨first, before⟩).mono (current_read kind state token)
    obtain ⟨same, ended⟩ := ih behind next
    refine ⟨?_, ended⟩
    rw [List.foldl_cons, same]
    cases layout : token.isLayout with
    | true =>
      rw [visible_cons_of_layout layout, read_of_layout layout, unlaid_keep_of_layout layout]
    | false => rw [visible_cons layout, List.foldl_cons, unlaid_read layout before]

end HeaderState

theorem beforeBody_subset (parentheses : Nat) (tokens : List Token) :
    beforeBody parentheses tokens ⊆ tokens := by
  induction tokens generalizing parentheses with
  | nil => exact List.Subset.refl []
  | cons token rest ih =>
    rw [beforeBody]
    split_ifs
    · exact List.nil_subset _
    all_goals exact List.cons_subset_cons token (ih _)

theorem headerTypes_visible (kind : TypeKind) {tokens : List Token} (blank : Uncommented tokens) :
    headerTypes kind (visible tokens) = headerTypes kind tokens := by
  have start : Uncommented ({} : HeaderState).current := by simp [Uncommented]
  have body : Uncommented (beforeBody 0 tokens) := blank.mono (beforeBody_subset 0 tokens)
  obtain ⟨same, ended⟩ := @HeaderState.unlaid_foldl_read kind {} _ body start
  rw [headerTypes, headerTypes, beforeBody_visible]
  have last := congrArg HeaderState.types (HeaderState.unlaid_endType ended)
  rw [same] at last
  exact congrArg List.reverse last.symm

/-! ### Single questions to the tokens of an item -/

theorem Item.isRecordHeader_visible (tokens : List Token) :
    isRecordHeader (visible tokens) = isRecordHeader tokens := by
  rw [isRecordHeader, isRecordHeader, skipLayout_visible]
  rcases skipLayout_cases tokens with ⟨skipped, none⟩ | ⟨name, rest, skipped, -, first⟩
  · rw [skipped, none]
  · rw [skipped, first, List.drop_succ_cons, List.drop_succ_cons, List.drop_zero, List.drop_zero,
      skipLayout_visible]
    rcases skipLayout_cases rest with ⟨skipped, none⟩ | ⟨token, more, skipped, -, second⟩
    · rw [skipped, none]
    · rw [skipped, second]

theorem any_isMark_visible (tokens : List Token) (mark : Char) :
    (visible tokens).any (·.isMark mark) = tokens.any (·.isMark mark) := by
  induction tokens with
  | nil => rfl
  | cons token rest ih =>
    cases layout : token.isLayout with
    | true =>
      rw [visible_cons_of_layout layout, List.any_cons, Token.isMark_of_isLayout layout,
        Bool.false_or, ih]
    | false => rw [visible_cons layout, List.any_cons, List.any_cons, ih]

theorem head?_skipLayout (tokens : List Token) :
    (skipLayout tokens).head? = (visible tokens).head? := by
  rcases skipLayout_cases tokens with ⟨skipped, none⟩ | ⟨token, rest, skipped, -, first⟩
  · rw [skipped, none]
  · rw [skipped, first, List.head?_cons, List.head?_cons]

end TypeLineage.Java
