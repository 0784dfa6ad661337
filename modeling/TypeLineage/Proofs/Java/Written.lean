import TypeLineage.Java.Item
import Mathlib.Data.List.Basic

/-!
# Supertypes as written

Every declaration of a unit is read from a header (`Unit.exists_header_of_mem`), and the types that
a header names are kept without their blanks. So no supertype that a source text names holds a blank,
whatever stands between its parts in the text (`Unit.blankless_of_mem_supertypes`).
-/

namespace TypeLineage.Java

/-- The supertypes of a declaration as written, the superclass first. -/
def Declaration.supertypes (declaration : Declaration) : List String :=
  declaration.superclass.toList ++ declaration.interfaces

/-- A text holds no blanks. -/
def Blankless (text : String) : Prop :=
  ∀ c ∈ text.toList, Text.isBlank c = false

theorem blankless_writtenType (tokens : List Token) : Blankless (writtenType tokens) := by
  intro c member
  rw [writtenType, String.toList_ofList] at member
  simpa using (List.mem_filter.mp member).2

namespace HeaderState

/-- The types that have been read so far hold no blanks. -/
def Clean (state : HeaderState) : Prop :=
  ∀ entry ∈ state.types, Blankless entry.2

variable {kind : TypeKind} {state : HeaderState}

theorem Clean.endType (clean : state.Clean) : state.endType.Clean := by
  unfold HeaderState.endType
  cases state.clause with
  | none => exact clean
  | some clause =>
    intro entry member
    rcases List.mem_cons.mp member with rfl | member
    · exact blankless_writtenType _
    · exact clean entry member

theorem Clean.readWord (clean : state.Clean) (token : Token) :
    (state.readWord kind token).Clean := by
  unfold HeaderState.readWord
  cases state.awaited with
  | annotationName | name => exact clean
  | keyword =>
    cases Clause.ofKeyword? kind token.text with
    | none => exact clean
    | some clause => exact clean.endType

theorem Clean.readOpen (clean : state.Clean) (token : Token) :
    (state.readOpen kind token).Clean := by
  unfold HeaderState.readOpen
  by_cases word : token.isWord = true
  · rw [if_pos word]
    exact clean.readWord token
  · rw [if_neg word]
    by_cases comma : token.isMark ',' = true
    · -- Only a comma ends a type here, and a comma is none of the other marks.
      split
      · exact clean
      split
      · exact clean
      · exact clean.endType
    · repeat' split
      all_goals exact clean

theorem Clean.read (clean : state.Clean) (token : Token) : (state.read kind token).Clean := by
  unfold HeaderState.read
  split
  · exact clean
  split
  · split
    · exact clean
    · exact clean
  · exact clean.readOpen token

theorem Clean.foldl_read (clean : state.Clean) (tokens : List Token) :
    (tokens.foldl (HeaderState.read kind) state).Clean := by
  induction tokens generalizing state with
  | nil => exact clean
  | cons token rest ih => exact ih (clean.read token)

end HeaderState

theorem blankless_of_mem_headerTypes {kind : TypeKind} {tokens : List Token}
    {entry : Clause × String} (member : entry ∈ headerTypes kind tokens) : Blankless entry.2 := by
  have start : HeaderState.Clean {} := by
    intro entry member
    cases member
  exact (start.foldl_read _).endType entry (List.mem_reverse.mp member)

theorem blankless_of_mem_ofHeader {kind : TypeKind} {name : String} {tokens : List Token}
    {written : String} (member : written ∈ (Declaration.ofHeader kind name tokens).supertypes) :
    Blankless written := by
  rcases List.mem_append.mp member with upper | across
  · obtain ⟨entry, found, rfl⟩ := Option.map_eq_some_iff.mp (Option.mem_toList.mp upper)
    exact blankless_of_mem_headerTypes (List.mem_of_find?_eq_some found)
  · obtain ⟨entry, kept, rfl⟩ := List.mem_map.mp across
    exact blankless_of_mem_headerTypes (List.mem_filter.mp kept).1

/-- What is declared by an item is read from a header. -/
theorem Item.exists_header_of_ofDeclaration? {kind : TypeKind} {tokens : List Token}
    {declaration : Declaration} (found : ofDeclaration? kind tokens = some (.declared declaration)) :
    ∃ name header, declaration = .ofHeader kind name header := by
  unfold ofDeclaration? at found
  split at found
  · split at found
    · cases found
      exact ⟨_, _, rfl⟩
    · cases found
  · cases found

theorem Item.exists_header_of_ofTokens? {tokens : List Token} {declaration : Declaration}
    (found : ofTokens? tokens = some (.declared declaration)) :
    ∃ kind name header, declaration = .ofHeader kind name header := by
  unfold ofTokens? at found
  simp only [ofImport?] at found
  repeat' split at found
  all_goals first
    | exact ⟨_, exists_header_of_ofDeclaration? found⟩
    | cases found

theorem Unit.mem_declarations_foldl {items : List Item} {unit : Unit} {declaration : Declaration}
    (member : declaration ∈ (items.foldl add unit).declarations) :
    declaration ∈ unit.declarations ∨ Item.declared declaration ∈ items := by
  induction items generalizing unit with
  | nil => exact .inl member
  | cons item rest ih =>
    rcases ih member with before | behind
    · cases item with
      | package name | imported imported => exact .inl before
      | declared other =>
        rcases List.mem_append.mp before with before | same
        · exact .inl before
        · right
          rw [List.mem_singleton.mp same]
          exact List.mem_cons_self
    · exact .inr (List.mem_cons_of_mem item behind)

/-- Every declaration of a unit that is read from a text is read from a header. -/
theorem Unit.exists_header_of_mem {source : String} {unit : Unit} {declaration : Declaration}
    (parsed : ofText? source = some unit) (member : declaration ∈ unit.declarations) :
    ∃ kind name header, declaration = .ofHeader kind name header := by
  unfold ofText? at parsed
  split at parsed
  · cases parsed
  · cases parsed
    rcases mem_declarations_foldl member with before | listed
    · cases before
    · obtain ⟨tokens, -, found⟩ := List.mem_filterMap.mp listed
      exact Item.exists_header_of_ofTokens? found

/-- No supertype that a source text names holds a blank. -/
theorem Unit.blankless_of_mem_supertypes {source : String} {unit : Unit} {declaration : Declaration}
    (parsed : ofText? source = some unit) (member : declaration ∈ unit.declarations)
    {written : String} (named : written ∈ declaration.supertypes) : Blankless written := by
  obtain ⟨kind, name, header, rfl⟩ := exists_header_of_mem parsed member
  exact blankless_of_mem_ofHeader named

end TypeLineage.Java
