import TypeLineage.Proofs.Java.Brackets
import Mathlib.Data.List.Induction
import Mathlib.Data.List.TakeWhile

/-!
# Where tokens end

How far a token goes is settled by its own characters and the one behind them (`settled_extent`). So a
text may be changed from the start of one token on without any effect on the tokens before it
(`tokens_append_of_cut`), and behind a mark that stands for itself any text may follow
(`Closed.tokens_append`).

There is one exception: the mark before `interface` is part of a longer token, which shows only at
the end of that word.
-/

namespace TypeLineage.Java

/-- A length is settled by the characters that it counts and the one behind them. -/
def Settled (length : List Char → Nat) : Prop :=
  ∀ front back other : List Char, length (front ++ back) < front.length →
    length (front ++ other) = length (front ++ back)

theorem settled_takeWhile (p : Char → Bool) : Settled fun text => (text.takeWhile p).length := by
  intro front back other short
  induction front with
  | nil => exact absurd short (Nat.not_lt_zero _)
  | cons c rest ih =>
    by_cases holds : p c
    · simpa [holds] using ih (by simpa [holds] using short)
    · simp [holds]

/-! ### Comments and characters -/

theorem commentLength_cons (c d : Char) (rest : List Char) :
    commentLength (c :: d :: rest) =
      if c = '*' ∧ d = '/' then 2 else 1 + commentLength (d :: rest) := by
  conv_lhs => unfold commentLength
  grind

theorem commentLength_pos (c : Char) (rest : List Char) : 0 < commentLength (c :: rest) := by
  unfold commentLength
  grind

theorem settled_commentLength : Settled commentLength := by
  intro front back other short
  induction front with
  | nil => exact absurd short (Nat.not_lt_zero _)
  | cons c rest ih =>
    cases rest with
    | nil => exact absurd (commentLength_pos c back) (by simpa using short)
    | cons d rest =>
      simp only [List.cons_append, commentLength_cons] at short ih ⊢
      grind

theorem characterLength_cons (c d : Char) (rest : List Char) :
    characterLength (c :: d :: rest) =
      if c = '\'' then 1 else if c = '\\' then 2 + characterLength rest
      else 1 + characterLength (d :: rest) := by
  conv_lhs => unfold characterLength
  grind

theorem characterLength_pos (c : Char) (rest : List Char) : 0 < characterLength (c :: rest) := by
  unfold characterLength
  grind

theorem settled_characterLength : Settled characterLength := by
  intro front back other short
  induction front using List.twoStepInduction with
  | nil => exact absurd short (Nat.not_lt_zero _)
  | singleton c => exact absurd (characterLength_pos c back) (by simpa using short)
  | cons_cons c d rest ih ih' =>
    simp only [List.cons_append, characterLength_cons] at short ih' ⊢
    grind

/-! ### Strings -/

theorem stringLength_pos (frame : Frame) (frames : List Frame) (c : Char) (rest : List Char) :
    0 < stringLength (frame :: frames) (c :: rest) := by
  unfold stringLength
  grind

theorem stringLength_eq_one {frame : Frame} {frames : List Frame} {c d : Char}
    {rest : List Char} (short : stringLength (frame :: frames) (c :: d :: rest) < 2)
    (other : List Char) : stringLength (frame :: frames) (c :: d :: other) = 1 := by
  have ended : frames = [] ∧ (frame = .string ∧ c = '"' ∨ frame = .expression 0 ∧ c = '}') := by
    unfold stringLength at short
    have pos (frame : Frame) (frames : List Frame) := stringLength_pos frame frames d rest
    cases frame with
    | expression braces =>
      cases frames <;> cases braces <;> grind
    | string => cases frames <;> grind
    | block => cases frames <;> grind
  obtain ⟨rfl, ⟨rfl, rfl⟩ | ⟨rfl, rfl⟩⟩ := ended <;> simp [stringLength]

theorem settled_stringLength (frames : List Frame) : Settled (stringLength frames) := by
  intro front back other
  -- a step may take up to three characters
  induction size : front.length using Nat.strongRecOn generalizing front frames with
  | ind size ih =>
    intro short
    cases frames with
    | nil => simp [stringLength]
    | cons frame frames =>
      match front, size with
      | [], rfl => exact absurd short (Nat.not_lt_zero _)
      | [c], rfl => exact absurd (stringLength_pos frame frames c back) (by simpa using short)
      | [c, d], rfl =>
        exact (stringLength_eq_one short other).trans (stringLength_eq_one short back).symm
      | c :: d :: e :: rest, rfl =>
        have one (frames : List Frame) := ih _ (by simp) frames (d :: e :: rest) rfl
        have two (frames : List Frame) := ih _ (by simp) frames (e :: rest) rfl
        have three (frames : List Frame) := ih _ (by simp; omega) frames rest rfl
        simp only [List.cons_append, List.length_cons] at short one two three ⊢
        unfold stringLength at short ⊢
        clear ih
        cases frame with
        | expression braces => grind
        | string => grind
        | block => grind

/-! ### Tokens -/

/-- Whether a word starts with another one is settled where the two part. -/
theorem isPrefixOf_append {word front : List Char} (other : ¬ front <+: word) (back : List Char) :
    word.isPrefixOf (front ++ back) = word.isPrefixOf front := by
  rw [Bool.eq_iff_iff, List.isPrefixOf_iff_prefix, List.isPrefixOf_iff_prefix]
  refine ⟨fun longer => ?_, fun shorter => shorter.trans (List.prefix_append front back)⟩
  exact (List.prefix_or_prefix_of_prefix longer (List.prefix_append front back)).resolve_right other

theorem extent_slash (c : Char) (rest : List Char) :
    extent '/' (c :: rest) =
      if c = '/' then (.layout, 1 + (rest.takeWhile (· != '\n')).length)
      else if c = '*' then (.layout, 1 + commentLength rest)
      else (.mark, 0) := by
  by_cases line : c = '/'
  · rw [if_pos line, line]
    rfl
  by_cases comment : c = '*'
  · rw [if_neg line, if_pos comment, comment]
    rfl
  · have mark : Text.isBlank '/' = false ∧ isWordChar '/' = false := by decide
    rw [if_neg line, if_neg comment]
    unfold extent
    split <;> simp_all

theorem extent_quote (c d : Char) (rest : List Char) :
    extent '"' (c :: d :: rest) =
      if c = '"' ∧ d = '"' then (.literal, 2 + stringLength [.block] rest)
      else (.literal, stringLength [.string] (c :: d :: rest)) := by
  by_cases block : c = '"' ∧ d = '"'
  · obtain ⟨rfl, rfl⟩ := block
    rfl
  · rw [if_neg block]
    unfold extent
    split <;> simp_all

theorem extent_at (rest : List Char) :
    extent '@' rest =
      if "interface".toList.isPrefixOf rest then (.annotationType, "interface".length)
      else (.mark, 0) := by
  unfold extent
  rfl

theorem extent_quote_pos (c : Char) (rest : List Char) : 0 < (extent '"' (c :: rest)).2 := by
  cases rest with
  | nil =>
    have string : extent '"' [c] = (.literal, stringLength [.string] [c]) := by
      unfold extent
      split <;> simp_all
    rw [string]
    exact stringLength_pos .string [] c []
  | cons d rest =>
    rw [extent_quote]
    split
    · exact Nat.add_pos_left Nat.two_pos _
    · exact stringLength_pos .string [] c (d :: rest)

theorem extent_other {first : Char} (other : first ∉ ['/', '"', '\'', '@']) (rest : List Char) :
    extent first rest =
      if Text.isBlank first then (.layout, (rest.takeWhile Text.isBlank).length)
      else if isWordChar first then (.word, (rest.takeWhile isWordChar).length)
      else (.mark, 0) := by
  simp only [List.mem_cons, List.not_mem_nil, or_false, not_or] at other
  obtain ⟨slash, quote, apostrophe, at'⟩ := other
  unfold extent
  split <;> first | rfl | contradiction

theorem extent_of_isBlank {first : Char} (blank : Text.isBlank first = true) (rest : List Char) :
    extent first rest = (.layout, (rest.takeWhile Text.isBlank).length) := by
  rw [extent_other _ rest, if_pos blank]
  rintro special
  simp only [List.mem_cons, List.not_mem_nil, or_false] at special
  rcases special with rfl | rfl | rfl | rfl <;> exact absurd blank (by decide)

theorem settled_extent_of_ne {first : Char} {front back : List Char} (plain : first ≠ '@')
    (short : (extent first (front ++ back)).2 < front.length) (other : List Char) :
    extent first (front ++ other) = extent first (front ++ back) := by
  by_cases special : first ∈ ['/', '"', '\'', '@']
  · simp only [List.mem_cons, List.not_mem_nil, plain, or_false] at special
    rcases special with rfl | rfl | rfl
    · match front with
      | [] => exact absurd short (Nat.not_lt_zero _)
      | c :: rest =>
        have line := settled_takeWhile (· != '\n') rest back other
        have comment := settled_commentLength rest back other
        simp only [List.cons_append, extent_slash] at short ⊢
        grind
    · match front with
      | [] => exact absurd short (Nat.not_lt_zero _)
      | [c] => exact absurd (extent_quote_pos c back) (by simpa using short)
      | c :: d :: rest =>
        have string := settled_stringLength [.string] (c :: d :: rest) back other
        have block := settled_stringLength [.block] rest back other
        simp only [List.cons_append, extent_quote] at short string ⊢
        grind
    · exact congrArg (Prod.mk Kind.literal) (settled_characterLength front back other short)
  · have blanks := settled_takeWhile Text.isBlank front back other
    have words := settled_takeWhile isWordChar front back other
    simp only [extent_other special] at short ⊢
    grind

theorem settled_extent {first : Char} {front back : List Char}
    (short : (extent first (front ++ back)).2 < front.length)
    (parted : ¬ front <+: "interface".toList) (other : List Char) :
    extent first (front ++ other) = extent first (front ++ back) := by
  by_cases special : first = '@'
  · simp only [special, extent_at, isPrefixOf_append parted]
  · exact settled_extent_of_ne special short other

/-- What comes behind a token and the next character may be left out. -/
theorem extent_of_short {first : Char} {front back : List Char}
    (short : (extent first (front ++ back)).2 < front.length) :
    extent first front = extent first (front ++ back) := by
  by_cases special : first = '@'
  · subst special
    rw [extent_at] at short
    rw [extent_at, extent_at]
    by_cases starts : "interface".toList <+: front ++ back
    · rw [if_pos (List.isPrefixOf_iff_prefix.mpr starts)] at short ⊢
      have inside : "interface".toList <+: front :=
        List.prefix_of_prefix_length_le starts (List.prefix_append front back) (Nat.le_of_lt short)
      rw [if_pos (List.isPrefixOf_iff_prefix.mpr inside)]
    · have outside : ¬ "interface".toList <+: front :=
        fun inside => starts (inside.trans (List.prefix_append front back))
      rw [if_neg (mt List.isPrefixOf_iff_prefix.mp starts),
        if_neg (mt List.isPrefixOf_iff_prefix.mp outside)]
  · have settled := settled_extent_of_ne special short []
    rwa [List.append_nil] at settled

theorem text_ne_nil_of_mem_tokens {text : List Char} {token : Token}
    (member : token ∈ tokens text) : token.text ≠ [] := by
  induction text using tokens.induct with
  | case1 => simp [tokens] at member
  | case2 first rest kind count h ih =>
    rw [tokens, h] at member
    rcases List.mem_cons.mp member with rfl | behind
    · simp
    · exact ih behind

theorem tokens_cons (first : Char) (rest : List Char) :
    tokens (first :: rest) =
      ⟨(extent first rest).1, first :: rest.take (extent first rest).2⟩ ::
        tokens (rest.drop (extent first rest).2) := by
  rw [tokens]

/-- The first token of a text, when all of it stands before a character that stays. -/
theorem tokens_cons_of_short {first : Char} {front back : List Char} {c : Char}
    (parted : c ∉ "interface".toList)
    (short : (extent first (front ++ c :: back)).2 ≤ front.length) (other : List Char) :
    tokens (first :: (front ++ c :: other)) =
      ⟨(extent first (front ++ c :: back)).1,
        first :: front.take (extent first (front ++ c :: back)).2⟩ ::
        tokens (front.drop (extent first (front ++ c :: back)).2 ++ c :: other) := by
  have apart : ¬ front ++ [c] <+: "interface".toList := fun shorter =>
    parted (shorter.subset (by simp))
  have same : extent first (front ++ c :: other) = extent first (front ++ c :: back) := by
    have settled := @settled_extent first (front ++ [c]) back
    simp only [List.append_assoc, List.singleton_append, List.length_append,
      List.length_singleton] at settled
    exact settled (Nat.lt_succ_of_le short) apart other
  rw [tokens_cons, same, List.take_append_of_le_length short, List.drop_append_of_le_length short]

/-- From the start of a token on a text may be changed without any effect on the tokens before, as
long as its next character stays. -/
theorem tokens_append_of_cut {front back : List Char} {before behind : List Token} {c : Char}
    (parted : c ∉ "interface".toList) (cut : tokens (front ++ c :: back) = before ++ behind)
    (texts : before.flatMap Token.text = front) (other : List Char) :
    tokens (front ++ c :: other) = before ++ tokens (c :: other) := by
  induction before generalizing front with
  | nil =>
    obtain rfl : [] = front := texts
    rfl
  | cons token before ih =>
    rw [List.flatMap_cons] at texts
    cases front with
    | nil =>
      have member : token ∈ tokens ([] ++ c :: back) := by rw [cut]; simp
      have written := text_ne_nil_of_mem_tokens member
      exact absurd (List.append_eq_nil_iff.mp texts).1 written
    | cons first front =>
      rw [List.cons_append, tokens_cons, List.cons_append, List.cons.injEq] at cut
      obtain ⟨rfl, cut⟩ := cut
      simp only [List.cons_append, List.cons.injEq, true_and] at texts
      have short : (extent first (front ++ c :: back)).2 ≤ front.length := by
        have := congrArg List.length texts
        simp only [List.length_append, List.length_take, List.length_cons] at this
        omega
      rw [List.take_append_of_le_length short] at texts ⊢
      rw [List.drop_append_of_le_length short] at cut
      have remaining : before.flatMap Token.text =
          front.drop (extent first (front ++ c :: back)).2 := by
        refine List.append_cancel_left (texts.trans ?_)
        exact List.take_append_drop _ front |>.symm
      rw [List.cons_append, tokens_cons_of_short parted short other, ih cut remaining]
      rfl

/-- The rest of a text has the rest of its tokens. -/
theorem tokens_of_cut {back : List Char} {before behind : List Token}
    (cut : tokens (before.flatMap Token.text ++ back) = before ++ behind) :
    tokens back = behind := by
  induction before with
  | nil => exact cut
  | cons token before ih =>
    have member : token ∈ tokens ((token :: before).flatMap Token.text ++ back) := by rw [cut]; simp
    obtain ⟨first, text, written⟩ := List.exists_cons_of_ne_nil (text_ne_nil_of_mem_tokens member)
    rw [List.flatMap_cons, written, List.cons_append, List.cons_append, tokens_cons,
      List.cons_append, List.cons.injEq] at cut
    obtain ⟨same, cut⟩ := cut
    rw [← same, List.cons.injEq] at written
    have halves := List.take_append_drop
      (extent first (text ++ before.flatMap Token.text ++ back)).2
      (text ++ before.flatMap Token.text ++ back)
    rw [written.2, List.append_assoc text, List.append_cancel_left_eq, ← List.append_assoc] at halves
    exact ih (halves ▸ cut)

theorem tokens_behind {text : List Char} {before behind : List Token}
    (cut : tokens text = before ++ behind) : tokens (behind.flatMap Token.text) = behind := by
  refine @tokens_of_cut _ before behind ?_
  rw [← List.flatMap_append, ← cut, flatMap_text_tokens, cut]

/-! ### Words -/

theorem isAlphanum_of_large {c : Char} (large : 0x80 ≤ c.toNat) : c.isAlphanum = false := by
  have same : c.toNat = c.val.toNat := rfl
  have ranges : c.isAlphanum =
      ((decide (c.val ≥ 'A'.val ∧ c.val ≤ 'Z'.val) ||
        decide (c.val ≥ 'a'.val) && decide (c.val ≤ 'z'.val)) ||
        decide (c.val ≥ '0'.val) && decide (c.val ≤ '9'.val)) := rfl
  simp only [ranges, ge_iff_le, UInt32.le_iff_toNat_le, Bool.or_eq_false_iff,
    Bool.and_eq_false_iff, decide_eq_false_iff_not]
  have upper : 'Z'.val.toNat = 90 := rfl
  have lower : 'z'.val.toNat = 122 := rfl
  have digit : '9'.val.toNat = 57 := rfl
  omega

theorem isBlank_of_isWordChar {c : Char} (word : isWordChar c = true) :
    Text.isBlank c = false := by
  by_cases ascii : c.toNat < 0x80
  · have all : ∀ n : Fin 128, isWordChar (Char.ofNat n) = true →
        Text.isBlank (Char.ofNat n) = false := by
      decide
    simpa [Char.ofNat_toNat] using all ⟨c.toNat, ascii⟩ (by simpa using word)
  · by_contra blank
    rw [Bool.not_eq_false] at blank
    have notAlphanum := isAlphanum_of_large (Nat.le_of_not_lt ascii)
    simp only [isWordChar, blank, notAlphanum, Bool.not_true, Bool.and_false, Bool.or_false,
      Bool.false_or, Bool.or_eq_true, beq_iff_eq] at word
    rcases word with rfl | rfl <;> exact ascii (by decide)

theorem extent_of_kind_word {first : Char} {rest : List Char}
    (word : (extent first rest).1 = .word) :
    isWordChar first = true ∧ (extent first rest).2 = (rest.takeWhile isWordChar).length := by
  unfold extent at word ⊢
  split at word
  case h_7 => grind
  case h_6 => split_ifs at word
  all_goals nomatch word

/-- A word of a text consists of characters for words. -/
theorem isWordChar_of_mem_tokens {text : List Char} {token : Token} (member : token ∈ tokens text)
    (word : token.isWord = true) : ∀ c ∈ token.text, isWordChar c = true := by
  induction text using tokens.induct with
  | case1 => simp [tokens] at member
  | case2 first rest kind count h ih =>
    rw [tokens, h] at member
    rcases List.mem_cons.mp member with rfl | behind
    · have kind : (extent first rest).1 = .word := by
        simpa [Token.isWord, h] using word
      obtain ⟨start, length⟩ := extent_of_kind_word kind
      rw [h] at length
      obtain rfl : count = _ := length
      intro c
      rw [ ← List.prefix_iff_eq_take.mp (List.takeWhile_prefix isWordChar)]
      exact fun member => (List.mem_cons.mp member).elim (· ▸ start) List.mem_takeWhile_imp
    · exact ih behind

/-! ### Texts one after the other -/

/-- A character that is always a mark of its own. -/
def Alone (c : Char) : Prop :=
  c ∉ ['/', '"', '\'', '@'] ∧ Text.isBlank c = false ∧ isWordChar c = false

instance : DecidablePred Alone := fun c => by
  unfold Alone
  infer_instance

theorem Alone.parted {c : Char} (alone : Alone c) : c ∉ "interface".toList := fun member => by
  have word : "interface".toList.all isWordChar = true := by decide
  exact absurd (List.all_eq_true.mp word c member) (by simp [alone.2.2])

theorem tokens_alone {c : Char} (alone : Alone c) (rest : List Char) :
    tokens (c :: rest) = .ofMark c :: tokens rest := by
  simp [tokens_cons, extent_other alone.1, alone.2.1, alone.2.2, Token.ofMark]

/-- Tokens behind which any text may follow, since the last one is a mark that stands for itself. -/
inductive Closed : List Token → Prop
  | nil : Closed []
  | mark {before : List Token} {c : Char} : Alone c → Closed (before ++ [.ofMark c])

/-- Behind closed tokens a text may be changed. -/
theorem Closed.tokens_append {before behind : List Token} {back : List Char}
    (closed : Closed before)
    (cut : tokens (before.flatMap Token.text ++ back) = before ++ behind) (other : List Char) :
    tokens (before.flatMap Token.text ++ other) = before ++ tokens other := by
  cases closed with
  | nil => rfl
  | @mark before c alone =>
    simp only [List.flatMap_append, List.flatMap_singleton, List.append_assoc] at cut ⊢
    rw [show (Token.ofMark c).text = [c] from rfl, List.singleton_append] at cut ⊢
    rw [tokens_append_of_cut alone.parted cut rfl other, tokens_alone alone, List.singleton_append]

/-- Behind a text whose tokens are closed any text may follow. -/
theorem Closed.tokens_text_append {text : List Char} (closed : Closed (tokens text))
    (other : List Char) : tokens (text ++ other) = tokens text ++ tokens other := by
  have whole := flatMap_text_tokens text
  have cut : tokens ((tokens text).flatMap Token.text ++ []) = tokens text ++ [] := by
    rw [List.append_nil, List.append_nil, whole]
  have behind := closed.tokens_append cut other
  rwa [whole] at behind

end TypeLineage.Java
