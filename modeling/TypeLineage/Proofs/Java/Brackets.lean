import TypeLineage.Java.Item
import Mathlib.Data.List.Basic

/-!
# Brackets

Where brackets are paired, nothing inside them can end an item: the tokens between a pair of brackets
are passed over whatever they are (`Balanced.itemsFrom`). So an item goes as far as it is meant to, to
its semicolon or to the end of its block (`Whole.items_append`).
-/

namespace TypeLineage.Java

namespace Token

/-- A mark. -/
def ofMark (c : Char) : Token :=
  ⟨.mark, [c]⟩

/-- A word. -/
def ofWord (word : String) : Token :=
  ⟨.word, word.toList⟩

/-- A single blank. -/
def ofBlank (c : Char) : Token :=
  ⟨.layout, [c]⟩

/-- Whether a token is a bracket. -/
def isBracket (token : Token) : Bool :=
  ['(', ')', '[', ']', '{', '}'].any token.isMark

@[simp] theorem isMark_ofMark (c mark : Char) : (ofMark c).isMark mark = (c == mark) := by
  simp [isMark, ofMark]

@[simp] theorem isLayout_ofMark (c : Char) : (ofMark c).isLayout = false := by
  simp [isLayout, ofMark]

@[simp] theorem isLayout_ofBlank (c : Char) : (ofBlank c).isLayout = true := by
  simp [isLayout, ofBlank]

@[simp] theorem isWord_ofMark (c : Char) : (ofMark c).isWord = false := by
  simp [isWord, ofMark]

@[simp] theorem isTheWord_ofMark (c : Char) (word : String) : (ofMark c).isTheWord word = false := by
  simp [isTheWord]

@[simp] theorem isLayout_ofWord (word : String) : (ofWord word).isLayout = false := by
  simp [isLayout, ofWord]

@[simp] theorem isWord_ofWord (word : String) : (ofWord word).isWord = true := by
  simp [isWord, ofWord]

@[simp] theorem kind_ofWord (word : String) : (ofWord word).kind = .word := by
  simp [ofWord]

theorem isTheWord_ofWord (word other : String) : (ofWord word).isTheWord other = (word == other) := by
  rw [Bool.eq_iff_iff, beq_iff_eq, ← String.toList_inj]
  simp [isTheWord, ofWord, isWord]

theorem isMark_iff {token : Token} {mark : Char} : token.isMark mark = true ↔ token = ofMark mark := by
  cases token
  simp [isMark, ofMark]

theorem isTheWord_iff {token : Token} {word : String} :
    token.isTheWord word = true ↔ token = ofWord word := by
  cases token
  simp [isTheWord, isWord, ofWord]

theorem isMark_of_kind {token : Token} (other : token.kind ≠ .mark) (mark : Char) :
    token.isMark mark = false := by
  simp [isMark, other]

@[simp] theorem isMark_ofWord (word : String) (mark : Char) : (ofWord word).isMark mark = false :=
  isMark_of_kind (by simp [ofWord]) mark

@[simp] theorem isBracket_ofWord (word : String) : (ofWord word).isBracket = false := by
  simp [isBracket]

theorem isMark_of_isWord {token : Token} (word : token.isWord = true) (mark : Char) :
    token.isMark mark = false := by
  refine isMark_of_kind ?_ mark
  rw [beq_iff_eq.mp word]
  decide

theorem isMark_of_isLayout {token : Token} (layout : token.isLayout = true) (mark : Char) :
    token.isMark mark = false := by
  refine isMark_of_kind ?_ mark
  rw [beq_iff_eq.mp layout]
  decide

theorem isBracket_of_not_mark {token : Token} (other : ∀ mark, token.isMark mark = false) :
    token.isBracket = false := by
  simp [isBracket, other]

theorem isWord_of_isLayout {token : Token} (layout : token.isLayout = true) :
    token.isWord = false := by
  rw [isWord, beq_iff_eq.mp layout]
  rfl

theorem isLayout_of_isWord {token : Token} (word : token.isWord = true) :
    token.isLayout = false := by
  rw [isLayout, beq_iff_eq.mp word]
  rfl

theorem isMark_of_not_isBracket {token : Token} (plain : token.isBracket = false) {mark : Char}
    (bracket : mark ∈ ['(', ')', '[', ']', '{', '}']) : token.isMark mark = false := by
  simpa using List.any_eq_false.mp plain mark bracket

end Token

/-- Nothing but layout. -/
def Gap (tokens : List Token) : Prop :=
  ∀ token ∈ tokens, token.isLayout = true

theorem gap_nil : Gap [] := by
  simp [Gap]

theorem gap_cons_iff {token : Token} {rest : List Token} :
    Gap (token :: rest) ↔ token.isLayout = true ∧ Gap rest :=
  List.forall_mem_cons

theorem gap_singleton {token : Token} (layout : token.isLayout = true) : Gap [token] :=
  gap_cons_iff.mpr ⟨layout, gap_nil⟩

theorem gap_blank (c : Char) : Gap [.ofBlank c] := by
  simp [Gap]

/-- Brackets that belong together. -/
inductive Paired : Char → Char → Prop
  | round : Paired '(' ')'
  | square : Paired '[' ']'
  | curly : Paired '{' '}'

/-- All brackets are paired. -/
inductive Balanced : List Token → Prop
  | nil : Balanced []
  | token {token : Token} {rest : List Token} : token.isBracket = false → Balanced rest →
    Balanced (token :: rest)
  | group {opening closing : Char} {inside rest : List Token} : Paired opening closing →
    Balanced inside → Balanced rest →
    Balanced (.ofMark opening :: (inside ++ .ofMark closing :: rest))

/-- What can stand in an item before its end: outside of brackets there are neither braces nor
semicolons. -/
inductive Open : List Token → Prop
  | nil : Open []
  | token {token : Token} {rest : List Token} : token.isBracket = false →
    token.isMark ';' = false → Open rest → Open (token :: rest)
  | round {inside rest : List Token} : Balanced inside → Open rest →
    Open (.ofMark '(' :: (inside ++ .ofMark ')' :: rest))
  | square {inside rest : List Token} : Balanced inside → Open rest →
    Open (.ofMark '[' :: (inside ++ .ofMark ']' :: rest))

/-- What can stand in a header: outside of parentheses there are neither braces nor semicolons. -/
inductive Inline : List Token → Prop
  | nil : Inline []
  | token {token : Token} {rest : List Token} : token.isBracket = false →
    token.isMark ';' = false → Inline rest → Inline (token :: rest)
  | round {inside rest : List Token} : Balanced inside → Inline rest →
    Inline (.ofMark '(' :: (inside ++ .ofMark ')' :: rest))
  | square {inside rest : List Token} : Inline inside → Inline rest →
    Inline (.ofMark '[' :: (inside ++ .ofMark ']' :: rest))

/-- A whole item: it ends with a semicolon or with a block. -/
inductive Whole : List Token → Prop
  | semicolon {front : List Token} : Open front → Whole (front ++ [.ofMark ';'])
  | block {front inside : List Token} : Open front → Balanced inside →
    Whole (front ++ .ofMark '{' :: (inside ++ [.ofMark '}']))

section Joining

variable {front back : List Token}

theorem Inline.append (first : Inline front) (second : Inline back) : Inline (front ++ back) := by
  induction first with
  | nil => exact second
  | token plain other _ ih => exact .token plain other ih
  | round inside _ ih =>
    rw [List.cons_append, List.append_assoc, List.cons_append]
    exact .round inside ih
  | square inside _ _ ih =>
    rw [List.cons_append, List.append_assoc, List.cons_append]
    exact .square inside ih

theorem Open.append (first : Open front) (second : Open back) : Open (front ++ back) := by
  induction first with
  | nil => exact second
  | token plain other _ ih => exact .token plain other ih
  | round inside _ ih =>
    rw [List.cons_append, List.append_assoc, List.cons_append]
    exact .round inside ih
  | square inside _ ih =>
    rw [List.cons_append, List.append_assoc, List.cons_append]
    exact .square inside ih

theorem Inline.balanced {tokens : List Token} (inline : Inline tokens) : Balanced tokens := by
  induction inline with
  | nil => exact .nil
  | token plain _ _ ih => exact .token plain ih
  | round inside _ ih => exact .group .round inside ih
  | square _ _ inside ih => exact .group .square inside ih

theorem Inline.isOpen {tokens : List Token} (inline : Inline tokens) : Open tokens := by
  induction inline with
  | nil => exact .nil
  | token plain other _ ih => exact .token plain other ih
  | round inside _ ih => exact .round inside ih
  | square inside _ _ ih => exact .square inside.balanced ih

theorem Inline.unmarked {token : Token} {rest : List Token}
    (unmarked : ∀ mark, token.isMark mark = false) (inline : Inline rest) : Inline (token :: rest) :=
  .token (Token.isBracket_of_not_mark unmarked) (unmarked ';') inline

theorem Inline.layout {token : Token} {rest : List Token} (layout : token.isLayout = true)
    (inline : Inline rest) : Inline (token :: rest) :=
  .unmarked (Token.isMark_of_isLayout layout) inline

theorem Inline.word {word : Token} {rest : List Token} (isWord : word.isWord = true)
    (inline : Inline rest) : Inline (word :: rest) :=
  .unmarked (Token.isMark_of_isWord isWord) inline

theorem Inline.of_gap {tokens : List Token} (gap : Gap tokens) : Inline tokens := by
  induction tokens with
  | nil => exact .nil
  | cons token rest ih =>
    obtain ⟨layout, behind⟩ := gap_cons_iff.mp gap
    exact .layout layout (ih behind)

end Joining

/-! ### Cutting items -/

section Items

variable {depth : Nat} {current tokens : List Token}

theorem itemsFrom_of_not_isBracket {token : Token} (plain : token.isBracket = false)
    (inside : token.isMark ';' = false ∨ depth ≠ 0) (rest : List Token) :
    itemsFrom depth current (token :: rest) = itemsFrom depth (token :: current) rest := by
  have unmarked : ∀ mark ∈ ['(', ')', '[', ']', '{', '}'], token.isMark mark = false :=
    fun mark => Token.isMark_of_not_isBracket plain
  have endless : (token.isMark ';' && depth == 0) = false := by
    rcases inside with other | within
    · simp [other]
    · simp [within]
  simp [itemsFrom, unmarked, endless]

/-- Between brackets nothing ends an item. -/
theorem Balanced.itemsFrom (balanced : Balanced tokens) (depth : Nat) (current rest : List Token) :
    itemsFrom (depth + 1) current (tokens ++ rest) =
      itemsFrom (depth + 1) (tokens.reverse ++ current) rest := by
  induction balanced generalizing depth current rest with
  | nil => rfl
  | token plain _ ih =>
    rw [List.cons_append, itemsFrom_of_not_isBracket plain (.inr (by simp)), ih]
    simp
  | group paired _ _ inside ih =>
    cases paired with
    | round | square | curly => simp [Java.itemsFrom, inside, ih]

theorem Open.itemsFrom (front : Open tokens) (current rest : List Token) :
    itemsFrom 0 current (tokens ++ rest) = itemsFrom 0 (tokens.reverse ++ current) rest := by
  induction front generalizing current rest with
  | nil => rfl
  | token plain other _ ih =>
    rw [List.cons_append, itemsFrom_of_not_isBracket plain (.inl other), ih]
    simp
  | round inside _ ih => simp [Java.itemsFrom, inside.itemsFrom, ih]
  | square inside _ ih => simp [Java.itemsFrom, inside.itemsFrom, ih]

/-- An item goes as far as its semicolon or the end of its block. -/
theorem Whole.items_append (whole : Whole tokens) (rest : List Token) :
    items (tokens ++ rest) = tokens :: items rest := by
  unfold items
  cases whole with
  | semicolon front => simp [front.itemsFrom, itemsFrom]
  | block front inside => simp [front.itemsFrom, itemsFrom, inside.itemsFrom]

theorem items_of_gap (gap : Gap tokens) : items tokens = [tokens] := by
  have whole := (Inline.of_gap gap).isOpen.itemsFrom [] []
  rw [List.append_nil, List.append_nil] at whole
  rw [items, whole, itemsFrom, List.reverse_reverse]

end Items

end TypeLineage.Java
