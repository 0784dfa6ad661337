import TypeLineage.Proofs.Json.Reading
import TypeLineage.Proofs.Text.Bytes
import Mathlib.Data.List.Forall2

/-!
# The spellings of a string

In a JSON text a character of a string may stand for itself, unless it is a quote, a backslash or a
control character. Some may be written by a letter behind a backslash, and all by their number, which
takes two escapes if it has more than four digits. Strings are read alike in all of these spellings.
-/

namespace TypeLineage.Json

/-- A digit to base sixteen, as a small letter or as a capital one. -/
def HexDigit (value : Nat) (digit : Char) : Prop :=
  "0123456789abcdef".toList[value]? = some digit ∨ "0123456789ABCDEF".toList[value]? = some digit

/-- Four digits to base sixteen. -/
def FourDigits (number : Nat) (digits : List Char) : Prop :=
  ∃ values : List Nat, values.length = 4 ∧ List.Forall₂ HexDigit values digits ∧
    number = values.foldl (fun number value => 16 * number + value) 0

/-- The ways to write a character of a string. -/
inductive SpellsChar : Char → List Char → Prop where
  /-- As it is. -/
  | plain {c : Char} (visible : ' ' ≤ c) (noQuote : c ≠ '"') (noSlash : c ≠ '\\') : SpellsChar c [c]
  /-- By a letter. -/
  | short {c letter : Char} (listed : (letter, c) ∈ shortEscapes) : SpellsChar c ['\\', letter]
  /-- By its number. -/
  | number {c : Char} {digits : List Char} (written : FourDigits c.toNat digits) :
      SpellsChar c ('\\' :: 'u' :: digits)
  /-- By its number in two parts. -/
  | pair {c : Char} {high low : List Char} (wide : 0x10000 ≤ c.toNat)
      (first : FourDigits (0xD800 + (c.toNat - 0x10000) / 0x400) high)
      (second : FourDigits (0xDC00 + (c.toNat - 0x10000) % 0x400) low) :
      SpellsChar c ('\\' :: 'u' :: high ++ '\\' :: 'u' :: low)

/-- The ways to write the characters of a string. -/
inductive SpellsChars : List Char → List Char → Prop where
  /-- There are none. -/
  | nil : SpellsChars [] []
  /-- One after the other. -/
  | cons {c : Char} {text written more : List Char} (first : SpellsChar c written)
      (rest : SpellsChars text more) : SpellsChars (c :: text) (written ++ more)

/-- The ways to write a string with its quotes. -/
def SpellsString (text : String) (written : List Char) : Prop :=
  ∃ inner, SpellsChars text.toList inner ∧ written = '"' :: (inner ++ ['"'])

/-- The byte of a character that has one. -/
def byteOf (c : Char) : UInt8 :=
  UInt8.ofNat c.toNat

theorem encoded_cons_ascii {c : Char} (ascii : c.toNat < 128) (text : List Char) :
    encoded (c :: text) = byteOf c :: encoded text := by
  rw [encoded_cons, bytesOf_ascii ascii]
  rfl

variable {value number : Nat} {digits inner text : List Char} {c : Char} {rest : List UInt8}

/-! ### Digits -/

theorem HexDigit.value_lt {digit : Char} (h : HexDigit value digit) : value < 16 := by
  rcases h with h | h
  · exact (List.getElem?_eq_some_iff.mp h).1
  · exact (List.getElem?_eq_some_iff.mp h).1

/-- A digit has one byte, from which its value is read. -/
theorem HexDigit.read {digit : Char} (h : HexDigit value digit) :
    digit.toNat < 128 ∧ hexValue? (byteOf digit) = some value := by
  have all : ∀ value < 16, ("0123456789abcdef".toList[value]?.toList ++
      "0123456789ABCDEF".toList[value]?.toList).all fun digit =>
        decide (digit.toNat < 128 ∧ hexValue? (byteOf digit) = some value) := by decide
  refine of_decide_eq_true (List.all_eq_true.mp (all value h.value_lt) digit ?_)
  rcases h with h | h
  · exact List.mem_append_left _ (by rw [h, Option.toList_some, List.mem_singleton])
  · exact List.mem_append_right _ (by rw [h, Option.toList_some, List.mem_singleton])

/-- Digits are read as their number. -/
theorem hexNumber?_encoded {values : List Nat} (h : List.Forall₂ HexDigit values digits)
    (before : Nat) :
    (encoded digits).length = values.length ∧
      (encoded digits).foldl (fun number byte => do return 16 * (← number) + (← hexValue? byte))
          (some before) =
        some (values.foldl (fun number value => 16 * number + value) before) := by
  induction h generalizing before with
  | nil => exact ⟨rfl, rfl⟩
  | cons first rest ih =>
    obtain ⟨ascii, read⟩ := first.read
    obtain ⟨length, number⟩ := ih _
    rw [encoded_cons_ascii ascii]
    refine ⟨by rw [List.length_cons, length, List.length_cons], ?_⟩
    rw [List.foldl_cons, read]
    exact number

/-- Four digits are read as their number. -/
theorem FourDigits.gives (h : FourDigits number digits) :
    Gives readHex (encoded digits ++ rest) number rest := by
  obtain ⟨values, four, written, rfl⟩ := h
  obtain ⟨length, number⟩ := hexNumber?_encoded written 0
  have taken : (encoded digits ++ rest).take 4 = encoded digits :=
    List.take_left' (length.trans four)
  have left : (encoded digits ++ rest).drop 4 = rest := List.drop_left' (length.trans four)
  have read : hexNumber? (encoded digits) = some _ := number
  refine Gives.get_bind fun _ => .bind (.skip 4) ?_
  rw [left, taken, if_neg (by omega)]
  simp only [read]
  exact .pure

/-! ### Escapes -/

theorem isThe_byteOf {mark c : Char} (ascii : c.toNat < 128) :
    isThe mark (byteOf c) = (c == mark) := by
  have byte : (byteOf c).toNat = c.toNat := by
    rw [byteOf, UInt8.toNat_ofNat', Nat.mod_eq_of_lt (by omega)]
  rw [isThe, byte, Bool.eq_iff_iff, beq_iff_eq, beq_iff_eq, Char.toNat_inj]

theorem gives_readEscapeMark (ascii : c.toNat < 128) :
    Gives (readEscapeMark c) (byteOf c :: rest) () rest := by
  refine .bind .peek? (.bind (.skip 1) ?_)
  rw [if_pos (by simp [isThe_byteOf ascii])]
  exact .pure

/-- An escape by number is read as the character. -/
theorem gives_readNumberEscape (written : FourDigits c.toNat digits) :
    Gives readNumberEscape (encoded digits ++ rest) (bytesOf c) rest := by
  have valid : c.toNat < 0xD800 ∨ 0xDFFF < c.toNat := by
    rcases c.valid with low | ⟨high, -⟩
    · exact .inl low
    · exact .inr high
  refine .bind written.gives ?_
  rw [if_neg (by omega), if_pos valid, Char.ofNat_toNat]
  exact .pure

/-- So is an escape in two parts. -/
theorem gives_readNumberEscape_pair {high low : List Char} (wide : 0x10000 ≤ c.toNat)
    (first : FourDigits (0xD800 + (c.toNat - 0x10000) / 0x400) high)
    (second : FourDigits (0xDC00 + (c.toNat - 0x10000) % 0x400) low) :
    Gives readNumberEscape (encoded (high ++ '\\' :: 'u' :: low) ++ rest) (bytesOf c) rest := by
  have bound := toNat_lt c
  rw [encoded_append, encoded_cons_ascii (by decide), encoded_cons_ascii (by decide),
    List.append_assoc]
  refine .bind first.gives ?_
  rw [if_neg (by omega), if_neg (by omega)]
  refine .bind (gives_readEscapeMark (by decide)) (.bind (gives_readEscapeMark (by decide)) ?_)
  refine .bind second.gives ?_
  rw [if_neg (by omega)]
  have same : 0x10000 + 0x400 * (0xD800 + (c.toNat - 0x10000) / 0x400 - 0xD800) +
      (0xDC00 + (c.toNat - 0x10000) % 0x400 - 0xDC00) = c.toNat := by omega
  rw [same, Char.ofNat_toNat]
  exact .pure

theorem gives_readEscape_number {rest' : List UInt8}
    (numbered : Gives readNumberEscape rest (bytesOf c) rest') :
    Gives readEscape (byteOf 'u' :: rest) (bytesOf c) rest' := by
  refine .bind .next? ?_
  dsimp only
  rw [if_pos (by decide)]
  exact numbered

/-- A letter is read as the character that it stands for. -/
theorem gives_readEscape_short {letter : Char} (listed : (letter, c) ∈ shortEscapes) :
    letter.toNat < 128 ∧ Gives readEscape (byteOf letter :: rest) (bytesOf c) rest := by
  have all : ∀ escape ∈ shortEscapes, escape.1.toNat < 128 ∧ isThe 'u' (byteOf escape.1) = false ∧
      shortEscapes.find? (fun other => isThe other.1 (byteOf escape.1)) = some escape := by decide
  obtain ⟨ascii, unnumbered, found⟩ := all (letter, c) listed
  refine ⟨ascii, .bind .next? ?_⟩
  dsimp only
  rw [if_neg (by simp [unnumbered]), found]
  exact .pure

/-- An escape in a string is read as its character. -/
theorem gives_readStringBytes_escape {budget : Nat} {taken more result rest' : List UInt8}
    (escape : Gives readEscape (more ++ rest) (bytesOf c) rest)
    (goesOn : Gives (readStringBytes budget ((bytesOf c).reverse ++ taken)) rest result rest') :
    Gives (readStringBytes (budget + 1) taken) (byteOf '\\' :: (more ++ rest)) result rest' := by
  refine .bind .next? ?_
  dsimp only
  rw [if_neg (by decide), if_pos (by decide)]
  exact .bind escape goesOn

/-! ### Strings -/

/-- A byte that stands for itself in a string. -/
def IsPlain (byte : UInt8) : Prop :=
  isThe '"' byte = false ∧ isThe '\\' byte = false ∧ ¬ byte < 32

theorem gives_readStringBytes_plain {budget : Nat} {bytes taken result rest' : List UInt8}
    (plain : ∀ byte ∈ bytes, IsPlain byte)
    (goesOn : Gives (readStringBytes budget (bytes.reverse ++ taken)) rest result rest') :
    Gives (readStringBytes (budget + bytes.length) taken) (bytes ++ rest) result rest' := by
  induction bytes generalizing taken with
  | nil => exact goesOn
  | cons byte bytes ih =>
    obtain ⟨noQuote, noSlash, visible⟩ := plain byte (.head _)
    refine .bind .next? ?_
    dsimp only
    rw [if_neg (by simp [noQuote]), if_neg (by simp [noSlash]), if_neg visible]
    refine ih (fun other member => plain other (.tail _ member)) ?_
    rwa [List.reverse_cons, List.append_assoc] at goesOn

theorem isPlain_of_mem_bytesOf (visible : ' ' ≤ c) (noQuote : c ≠ '"') (noSlash : c ≠ '\\')
    {byte : UInt8} (member : byte ∈ bytesOf c) : IsPlain byte := by
  by_cases ascii : c.toNat < 128
  · rw [bytesOf_ascii ascii] at member
    obtain rfl := List.mem_singleton.mp member
    have visible : 32 ≤ c.toNat := visible
    refine ⟨?_, ?_, ?_⟩
    · exact (isThe_byteOf ascii).trans (by simpa using noQuote)
    · exact (isThe_byteOf ascii).trans (by simpa using noSlash)
    · rw [UInt8.lt_iff_toNat_lt, UInt8.toNat_ofNat', Nat.mod_eq_of_lt (by omega)]
      simpa using visible
  · have wide := le_of_mem_bytesOf (by omega) member
    have apart : ∀ mark : Char, mark.toNat < 128 → isThe mark byte = false := by
      intro mark ascii
      rw [isThe, beq_eq_false_iff_ne]
      omega
    refine ⟨apart '"' (by decide), apart '\\' (by decide), ?_⟩
    rw [UInt8.lt_iff_toNat_lt]
    have small : (32 : UInt8).toNat = 32 := rfl
    omega

/-- A character is written as it is, or behind a backslash by what is read as the character. -/
theorem SpellsChar.plain_or_escape {written : List Char} (h : SpellsChar c written) :
    (written = [c] ∧ ∀ byte ∈ bytesOf c, IsPlain byte) ∨
      ∃ tail, written = '\\' :: tail ∧
        ∀ rest, Gives readEscape (encoded tail ++ rest) (bytesOf c) rest := by
  cases h with
  | plain visible noQuote noSlash =>
    exact .inl ⟨rfl, fun byte => isPlain_of_mem_bytesOf visible noQuote noSlash⟩
  | @short letter listed =>
    refine .inr ⟨[letter], rfl, fun rest => ?_⟩
    obtain ⟨ascii, gives⟩ := gives_readEscape_short listed
    rw [encoded_cons_ascii ascii]
    exact gives
  | @number digits written =>
    refine .inr ⟨'u' :: digits, rfl, fun rest => ?_⟩
    rw [encoded_cons_ascii (by decide)]
    exact gives_readEscape_number (gives_readNumberEscape written)
  | @pair high low wide first second =>
    refine .inr ⟨'u' :: (high ++ '\\' :: 'u' :: low), rfl, fun rest => ?_⟩
    rw [encoded_cons_ascii (by decide)]
    exact gives_readEscape_number (gives_readNumberEscape_pair wide first second)

/-- What is written is read up to the quote. -/
theorem SpellsChars.gives (h : SpellsChars text inner) {budget : Nat}
    (enough : (encoded inner).length < budget) (taken : List UInt8) :
    Gives (readStringBytes budget taken) (encoded inner ++ byteOf '"' :: rest)
      (taken.reverse ++ encoded text) rest := by
  induction h generalizing budget taken with
  | nil =>
    obtain ⟨budget, rfl⟩ := Nat.exists_eq_add_of_lt enough
    refine .bind .next? ?_
    dsimp only
    rw [if_pos (by decide), encoded_nil, List.append_nil]
    exact .pure
  | @cons c text written more first others ih =>
    rw [encoded_append, List.length_append] at enough
    rw [encoded_append, List.append_assoc, encoded_cons]
    have goesOn : ∀ {budget}, (encoded more).length < budget →
        Gives (readStringBytes budget ((bytesOf c).reverse ++ taken))
          (encoded more ++ byteOf '"' :: rest) (taken.reverse ++ (bytesOf c ++ encoded text))
          rest := by
      intro budget enough
      have given := ih enough ((bytesOf c).reverse ++ taken)
      rwa [List.reverse_append, List.reverse_reverse, List.append_assoc] at given
    -- The budget goes down with every byte of a plain character, but only once for an escape.
    rcases first.plain_or_escape with ⟨rfl, plain⟩ | ⟨tail, rfl, escape⟩
    · rw [encoded_cons, encoded_nil, List.append_nil] at enough ⊢
      obtain ⟨left, rfl⟩ : ∃ left, budget = left + (bytesOf c).length :=
        ⟨budget - (bytesOf c).length, by omega⟩
      exact gives_readStringBytes_plain plain (goesOn (by omega))
    · rw [encoded_cons_ascii (by decide), List.length_cons] at enough
      obtain ⟨left, rfl⟩ : ∃ left, budget = left + 1 := ⟨budget - 1, by omega⟩
      rw [encoded_cons_ascii (by decide)]
      exact gives_readStringBytes_escape (escape _) (goesOn (by omega))

/-- A string is read behind its first quote as what it spells. -/
theorem SpellsString.gives {text : String} {written : List Char} (h : SpellsString text written) :
    ∃ inner, encoded written = byteOf '"' :: inner ∧
      ∀ rest, Gives readString (inner ++ rest) text rest := by
  obtain ⟨inner, spells, rfl⟩ := h
  refine ⟨encoded inner ++ [byteOf '"'], ?_, fun rest => ?_⟩
  · rw [encoded_cons_ascii (by decide), encoded_append, encoded_cons_ascii (by decide), encoded_nil]
  · rw [List.append_assoc]
    refine Gives.get_bind fun _ => .bind (spells.gives ?_ []) ?_
    · rw [List.length_append]
      omega
    have decoded := fromUTF8?_encoded text.toList
    rw [String.ofList_toList] at decoded
    simp only [List.reverse_nil, List.nil_append, decoded, Option.getD_some]
    exact .pure

end TypeLineage.Json
