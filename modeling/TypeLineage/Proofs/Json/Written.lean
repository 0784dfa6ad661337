import TypeLineage.Json.Writer
import TypeLineage.Proofs.Json.Objects

/-!
# The writer's spelling

What the library writes without blanks is one of the ways to write it.
-/

namespace TypeLineage.Json

instance (value : Nat) (digit : Char) : Decidable (HexDigit value digit) :=
  inferInstanceAs (Decidable (_ ∨ _))

/-- Control characters are written by four digits. -/
theorem fourDigits_hex {number : Nat} (small : number < 32) :
    FourDigits number
      (List.replicate (4 - (Text.hex number).length) '0' ++ Text.hex number) := by
  have all : ∀ number < 32, List.Forall₂ HexDigit [0, 0, number / 16, number % 16]
      (List.replicate (4 - (Text.hex number).length) '0' ++ Text.hex number) := by decide
  refine ⟨_, rfl, all number small, ?_⟩
  simp only [List.foldl_cons, List.foldl_nil]
  omega

theorem spellsChar_writtenChar (c : Char) : SpellsChar c (writtenChar c) := by
  unfold writtenChar
  split_ifs with mark back tab feed page turn control
  · rcases mark with rfl | rfl
    · exact .short (by decide)
    · exact .short (by decide)
  · exact back ▸ .short (by decide)
  · exact tab ▸ .short (by decide)
  · exact feed ▸ .short (by decide)
  · exact page ▸ .short (by decide)
  · exact turn ▸ .short (by decide)
  · exact .number (fourDigits_hex control)
  · obtain ⟨noQuote, noSlash⟩ := not_or.mp mark
    exact .plain (by simpa using control) noQuote noSlash

theorem spellsString_writtenString (text : String) : SpellsString text (writtenString text) := by
  have chars : ∀ text, SpellsChars text (text.flatMap writtenChar) := by
    intro text
    induction text with
    | nil => exact .nil
    | cons c text ih => exact .cons (spellsChar_writtenChar c) ih
  exact ⟨_, chars text.toList, rfl⟩

theorem spellsValue_string (text : String) :
    SpellsValue (.string text) (compactChars (.string text)) :=
  .string (spellsString_writtenString text)

/-- What the writer puts behind the opening brace is a first member and what follows it. -/
theorem exists_compactMembers {member : String × Json} {members : List (String × Json)}
    (valued : ∀ other ∈ member :: members, SpellsValue other.2 (compactChars other.2)) :
    ∃ first rest, SpellsMember member first ∧ SpellsRest members rest ∧
      compactMembers (member :: members) ++ ['}'] = first ++ rest := by
  have one : ∀ other ∈ member :: members,
      SpellsMember other (writtenString other.1 ++ ':' :: compactChars other.2) :=
    fun other inside => .mk (spellsString_writtenString other.1) .nil .nil (valued other inside)
  induction members generalizing member with
  | nil => exact ⟨_, _, one member (.head _), .close .nil, by simp [compactMembers]⟩
  | cons next members ih =>
    obtain ⟨first, rest, named, others, same⟩ :=
      ih (fun other inside => valued other (.tail _ inside))
        fun other inside => one other (.tail _ inside)
    refine ⟨_, _, one member (.head _), .more .nil .nil named others, ?_⟩
    simp [compactMembers, ← same]

/-- An object of texts and truth values is written in one of the ways to write it. -/
theorem spellsObject_compactChars {members : List (String × Json)} (filled : members ≠ [])
    (valued : ∀ member ∈ members, SpellsValue member.2 (compactChars member.2)) :
    SpellsObject members (compactChars (.object members)) := by
  cases members with
  | nil => exact absurd rfl filled
  | cons member members =>
    obtain ⟨first, rest, one, others, same⟩ := exists_compactMembers valued
    rw [compactChars, same]
    exact .mk .nil one others

/-! ### Without a line end -/

theorem newline_not_mem_writtenChar (c : Char) : '\n' ∉ writtenChar c := by
  have digits : ∀ number < 32, '\n' ∉ ['\\', 'u'] ++
      List.replicate (4 - (Text.hex number).length) '0' ++ Text.hex number := by decide
  unfold writtenChar
  split_ifs with mark back tab feed page turn control
  · rcases mark with rfl | rfl <;> decide
  · decide
  · decide
  · decide
  · decide
  · decide
  · exact digits c.toNat control
  · simpa using Ne.symm feed

theorem newline_not_mem_writtenString (text : String) : '\n' ∉ writtenString text := by
  simp [writtenString, newline_not_mem_writtenChar]

theorem newline_not_mem_compactMembers {members : List (String × Json)}
    (whole : ∀ member ∈ members, '\n' ∉ compactChars member.2) :
    '\n' ∉ compactMembers members := by
  induction members with
  | nil => simp [compactMembers]
  | cons member members ih =>
    have here := whole member (.head _)
    have behind := ih fun other inside => whole other (.tail _ inside)
    cases members <;> simp [compactMembers, newline_not_mem_writtenString, here, behind]

end TypeLineage.Json
