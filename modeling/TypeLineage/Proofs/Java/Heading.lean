import TypeLineage.Proofs.Java.Types

/-!
# Declarations as they are written

A declaration is written with modifiers, a keyword, a name, what is particular to its kind, clauses
and a body (`Declares`). What it says is its `Heading`: the kind, the name and the tokens of the
supertypes. Of all that is written nothing but the heading counts
(`Declares.ofTokens?_eq`).
-/

namespace TypeLineage.Java

/-- What the declaration of a type says of it. -/
structure Heading where
  /-- What it is. -/
  kind : TypeKind
  /-- Its name. -/
  name : String
  /-- The tokens of the superclass. -/
  superclass : Option (List Token) := none
  /-- The tokens of the interfaces. -/
  interfaces : List (List Token) := []

/-- The declaration with a heading. -/
def Heading.declaration (heading : Heading) : Declaration where
  kind := heading.kind
  name := heading.name
  superclass := heading.superclass.map writtenType
  interfaces := heading.interfaces.map writtenType

/-- The token that the declaration of a type starts with. -/
def TypeKind.start : TypeKind → Token
  | .class => .ofWord "class"
  | .interface => .ofWord "interface"
  | .enumeration => .ofWord "enum"
  | .record => .ofWord "record"
  | .annotationType => ⟨.annotationType, "@interface".toList⟩

/-- The keyword before the interfaces of a type. -/
def TypeKind.interfacesKeyword : TypeKind → String
  | .interface => "extends"
  | _ => "implements"

/-- A type with layout around it. -/
inductive Spaced (type : List Token) : List Token → Prop
  | written {segments : List Segment} {before behind : List Token} : Gap before →
    Written segments type → Gap behind → Spaced type (before ++ (type ++ behind))

/-- Types with commas between them. -/
inductive TypeList : List Token → List (List Token) → Prop
  | one {type tokens : List Token} : Spaced type tokens → TypeList tokens [type]
  | more {type front rest : List Token} {types : List (List Token)} : Spaced type front →
    TypeList rest types → TypeList (front ++ .ofMark ',' :: rest) (type :: types)

/-- The clause that names the superclass, if there is one. -/
inductive SuperclassClause : List Token → Option (List Token) → Prop
  | none : SuperclassClause [] none
  | extended {type tokens : List Token} : Spaced type tokens →
    SuperclassClause (.ofWord "extends" :: tokens) (some type)

/-- A clause with a keyword and some types, if there is one. -/
inductive TypesClause (keyword : String) : List Token → List (List Token) → Prop
  | none : TypesClause keyword [] []
  | listed {tokens : List Token} {types : List (List Token)} : TypeList tokens types →
    TypesClause keyword (.ofWord keyword :: tokens) types

/-- What stands between the name and the clauses: type parameters, and the components of a record. -/
inductive Particulars : TypeKind → List Token → Prop
  | parameters {kind : TypeKind} {tokens : List Token} : kind ≠ .record → TypeArguments tokens →
    Particulars kind tokens
  | components {parameters inside behind : List Token} : TypeArguments parameters →
    Balanced inside → Gap behind →
    Particulars .record (parameters ++ .ofMark '(' :: (inside ++ .ofMark ')' :: behind))

/-- What stands between the name and the body. -/
inductive Header (heading : Heading) : List Token → Prop
  | written {particulars superclass interfaces permitted : List Token}
    {subtypes : List (List Token)} : Particulars heading.kind particulars →
    SuperclassClause superclass heading.superclass →
    (heading.superclass ≠ none → heading.kind = .class) →
    TypesClause heading.kind.interfacesKeyword interfaces heading.interfaces →
    TypesClause "permits" permitted subtypes →
    Header heading (particulars ++ (superclass ++ (interfaces ++ permitted)))

/-- The declaration of a type up to its body. -/
inductive Opening (heading : Heading) : List Token → Prop
  | written {modifiers gap header : List Token} : Modifiers modifiers → Gap gap →
    Header heading header →
    Opening heading (modifiers ++ heading.kind.start :: (gap ++ .ofWord heading.name :: header))

/-- The body of a declaration. -/
inductive Body : List Token → Prop
  | written {inside : List Token} : Balanced inside →
    Body (.ofMark '{' :: (inside ++ [.ofMark '}']))

/-- The declaration of a type. -/
inductive Declares (heading : Heading) : List Token → Prop
  | written {front body : List Token} : Opening heading front → Body body →
    Declares heading (front ++ body)

/-! ### Headers end at the body -/

theorem Spaced.inline {type tokens : List Token} (spaced : Spaced type tokens) : Inline tokens := by
  obtain ⟨before, written, behind⟩ := spaced
  exact (Inline.of_gap before).append (written.inline.append (.of_gap behind))

theorem TypeList.inline {tokens : List Token} {types : List (List Token)}
    (list : TypeList tokens types) : Inline tokens := by
  induction list with
  | one spaced => exact spaced.inline
  | more spaced _ ih => exact spaced.inline.append (.token (by decide) (by decide) ih)

theorem TypesClause.inline {keyword : String} {tokens : List Token} {types : List (List Token)}
    (clause : TypesClause keyword tokens types) : Inline tokens := by
  cases clause with
  | none => exact .nil
  | listed list => exact .word (Token.isWord_ofWord keyword) list.inline

theorem SuperclassClause.inline {tokens : List Token} {superclass : Option (List Token)}
    (clause : SuperclassClause tokens superclass) : Inline tokens := by
  cases clause with
  | none => exact .nil
  | extended spaced => exact .word (Token.isWord_ofWord _) spaced.inline

theorem Particulars.inline {kind : TypeKind} {tokens : List Token}
    (particulars : Particulars kind tokens) : Inline tokens := by
  cases particulars with
  | parameters _ parameters => exact parameters.inline
  | components parameters inside behind =>
    exact parameters.inline.append (.round inside (.of_gap behind))

theorem Header.inline {heading : Heading} {tokens : List Token} (header : Header heading tokens) :
    Inline tokens := by
  obtain ⟨particulars, superclass, _, interfaces, permitted⟩ := header
  exact particulars.inline.append
    (superclass.inline.append (interfaces.inline.append permitted.inline))

theorem Balanced.beforeBody {inside : List Token} (balanced : Balanced inside) (depth : Nat)
    (rest : List Token) :
    beforeBody (depth + 1) (inside ++ rest) = inside ++ beforeBody (depth + 1) rest := by
  induction balanced generalizing depth rest with
  | nil => rfl
  | token plain _ ih =>
    have opening := Token.isMark_of_not_isBracket plain (show '(' ∈ _ by decide)
    have closing := Token.isMark_of_not_isBracket plain (show ')' ∈ _ by decide)
    simp [Java.beforeBody, opening, closing, ih]
  | group paired _ _ inside ih =>
    cases paired with
    | round | square | curly => simp [Java.beforeBody, inside, ih]

theorem Inline.beforeBody {header : List Token} (inline : Inline header) (rest : List Token) :
    beforeBody 0 (header ++ rest) = header ++ beforeBody 0 rest := by
  induction inline generalizing rest with
  | nil => rfl
  | token plain _ _ ih =>
    have opening := Token.isMark_of_not_isBracket plain (show '(' ∈ _ by decide)
    have closing := Token.isMark_of_not_isBracket plain (show ')' ∈ _ by decide)
    have curly := Token.isMark_of_not_isBracket plain (show '{' ∈ _ by decide)
    simp [Java.beforeBody, opening, closing, curly, ih]
  | round inside _ ih => simp [Java.beforeBody, inside.beforeBody, ih]
  | square _ _ inside ih => simp [Java.beforeBody, inside, ih]

theorem Header.beforeBody {heading : Heading} {header body : List Token}
    (written : Header heading header) (block : Body body) :
    beforeBody 0 (header ++ body) = header := by
  obtain ⟨inside⟩ := block
  rw [written.inline.beforeBody, Java.beforeBody]
  simp

/-! ### The text of a type -/

/-- Layout around a type does not count. -/
theorem writtenType_gap {before type behind : List Token} (first : Gap before)
    (second : Gap behind) : writtenType (before ++ (type ++ behind)) = writtenType type := by
  have front : (before ++ (type ++ behind)).dropWhile Token.isLayout =
      (type ++ behind).dropWhile Token.isLayout :=
    List.dropWhile_append_of_pos first
  have back : ((type ++ behind).dropWhile Token.isLayout).reverse.dropWhile Token.isLayout =
      (type.dropWhile Token.isLayout).reverse.dropWhile Token.isLayout := by
    rw [List.dropWhile_append]
    split
    · rename_i none
      rw [List.isEmpty_iff.mp none, List.dropWhile_eq_nil_iff.mpr second]
    · rw [List.reverse_append]
      exact List.dropWhile_append_of_pos second.reverse
  simp only [writtenType, front, back]

theorem Spaced.writtenType {type tokens : List Token} (spaced : Spaced type tokens) :
    writtenType tokens = Java.writtenType type := by
  obtain ⟨before, _, behind⟩ := spaced
  exact writtenType_gap before behind

/-! ### Reading clauses -/

/-- The types that a clause names. -/
def Clause.named (clause : Clause) (types : List (List Token)) : List (Clause × String) :=
  types.map fun type => (clause, writtenType type)

namespace HeaderState

/-- The reading has come to where a clause may start, and these types have been named so far, the
last one first. -/
inductive Named (types : List (Clause × String)) : HeaderState → Prop
  | reached {clause : Option Clause} {current : List Token} {earlier : List (Clause × String)} :
    (resting clause .keyword current earlier).endType.types = types →
    Named types (resting clause .keyword current earlier)

variable {kind : TypeKind} {types : List (Clause × String)} {state : HeaderState}

theorem Named.types_endType (named : Named types state) : state.endType.types = types := by
  obtain ⟨ended⟩ := named
  exact ended

theorem foldl_read_spaced {type tokens : List Token} (spaced : Spaced type tokens)
    {clause : Option Clause} :
    tokens.foldl (read kind) (resting clause .name [] types) =
      resting clause .keyword tokens.reverse types := by
  obtain ⟨before, written, behind⟩ := spaced
  rw [List.foldl_append, foldl_read_gap before, List.foldl_append, foldl_read_written written,
    foldl_read_gap behind]
  simp

theorem endType_spaced {type tokens : List Token} (spaced : Spaced type tokens) (clause : Clause)
    (awaited : Awaited) (types : List (Clause × String)) :
    (resting (some clause) awaited tokens.reverse types).endType =
      resting (some clause) awaited [] ((clause, writtenType type) :: types) := by
  simp [resting, endType, spaced.writtenType]

/-- The types of a list are named one after the other. -/
theorem named_typeList {tokens : List Token} {listed : List (List Token)}
    (list : TypeList tokens listed) (clause : Clause) :
    Named ((clause.named listed).reverse ++ types)
      (tokens.foldl (read kind) (resting (some clause) .name [] types)) := by
  induction list generalizing types with
  | one spaced =>
    rw [foldl_read_spaced spaced]
    refine .reached ?_
    rw [endType_spaced spaced]
    rfl
  | @more type front rest listed spaced _ ih =>
    have comma : (resting (some clause) .keyword front.reverse types).read kind (.ofMark ',') =
        resting (some clause) .name [] ((clause, writtenType type) :: types) := by
      have ended := endType_spaced spaced clause .keyword types
      simp only [resting] at ended
      simp [read, readOpen, resting, ended]
    rw [List.foldl_append, foldl_read_spaced spaced, List.foldl_cons, comma]
    simpa [Clause.named] using @ih ((clause, writtenType type) :: types)

/-- A keyword of a clause ends the type before it. -/
theorem Named.read_keyword (named : Named types state) {keyword : String} {clause : Clause}
    (isKeyword : Clause.ofKeyword? kind keyword.toList = some clause) :
    state.read kind (.ofWord keyword) = resting (some clause) .name [] types := by
  obtain ⟨rfl⟩ := named
  cases ‹Option Clause› <;>
    simp [read, readOpen, readWord, resting, endType, isKeyword, Token.ofWord, Token.isWord]

theorem Named.typesClause (named : Named types state) (keyword : String) {clause : Clause}
    (isKeyword : Clause.ofKeyword? kind keyword.toList = some clause) {tokens : List Token}
    {listed : List (List Token)} (written : TypesClause keyword tokens listed) :
    Named ((clause.named listed).reverse ++ types)
      (tokens.foldl (read kind) state) := by
  cases written with
  | none => exact named
  | listed list =>
    rw [List.foldl_cons, named.read_keyword isKeyword]
    exact named_typeList list clause

theorem named_particulars {tokens : List Token} (written : Particulars kind tokens) :
    Named [] (tokens.foldl (read kind) {}) := by
  have start : ({} : HeaderState) = resting none .keyword [] [] := rfl
  rw [start]
  cases written with
  | parameters _ parameters =>
    rw [foldl_read_typeArguments parameters]
    exact .reached rfl
  | @components parameters inside behind layout balanced gap =>
    have whole : parameters ++ .ofMark '(' :: (inside ++ .ofMark ')' :: behind) =
        parameters ++ ((.ofMark '(' :: (inside ++ [.ofMark ')'])) ++ behind) := by
      simp
    rw [whole, List.foldl_append, foldl_read_typeArguments layout, List.foldl_append,
      foldl_read_parentheses balanced, foldl_read_gap gap]
    exact .reached rfl

end HeaderState

theorem ofKeyword?_interfacesKeyword (kind : TypeKind) :
    Clause.ofKeyword? kind kind.interfacesKeyword.toList = some .interfaces := by
  cases kind <;> decide

theorem ofKeyword?_permits (kind : TypeKind) :
    Clause.ofKeyword? kind "permits".toList = some .permitted := by
  cases kind <;> decide

theorem HeaderState.Named.superclassClause {kind : TypeKind} {state : HeaderState}
    {tokens : List Token} {superclass : Option (List Token)} (start : Named [] state)
    (written : SuperclassClause tokens superclass) (ofClass : superclass ≠ none → kind = .class) :
    Named (Clause.superclass.named superclass.toList).reverse (tokens.foldl (read kind) state) := by
  cases written with
  | none => exact start
  | extended spaced =>
    rw [ofClass (by simp)]
    exact start.typesClause "extends" (by decide) (.listed (.one spaced))

/-- The supertypes that a header names are those of the heading, in their order. -/
theorem Header.headerTypes {heading : Heading} {header body : List Token}
    (written : Header heading header) (block : Body body) :
    ∃ subtypes, headerTypes heading.kind (header ++ body) =
      Clause.superclass.named heading.superclass.toList ++
        (Clause.interfaces.named heading.interfaces ++ Clause.permitted.named subtypes) := by
  have before := written.beforeBody block
  obtain ⟨particulars, superclass, ofClass, interfaces, permitted⟩ := written
  rename_i subtypes
  have named := (((HeaderState.named_particulars particulars).superclassClause superclass
    ofClass).typesClause _ (ofKeyword?_interfacesKeyword heading.kind) interfaces).typesClause _
    (ofKeyword?_permits heading.kind) permitted
  refine ⟨subtypes, ?_⟩
  have whole := named.types_endType
  simp only [← List.foldl_append, List.append_assoc] at whole
  rw [Java.headerTypes, before, whole]
  simp

theorem Clause.filter_named (clause other : Clause) (types : List (List Token)) :
    (clause.named types).filter (fun entry => entry.1 == other) =
      if clause = other then clause.named types else [] := by
  by_cases same : clause = other <;> simp [Clause.named, same]

/-- What is read from a header is the heading. -/
theorem Header.ofHeader {heading : Heading} {header body : List Token}
    (written : Header heading header) (block : Body body) :
    Declaration.ofHeader heading.kind heading.name (header ++ body) = heading.declaration := by
  obtain ⟨subtypes, types⟩ := written.headerTypes block
  have superclass : ((Java.headerTypes heading.kind (header ++ body)).filter
      fun entry => entry.1 == .superclass) = Clause.superclass.named heading.superclass.toList := by
    simp [types, Clause.filter_named]
  have interfaces : ((Java.headerTypes heading.kind (header ++ body)).filter
      fun entry => entry.1 == .interfaces) = Clause.interfaces.named heading.interfaces := by
    simp [types, Clause.filter_named]
  rw [Declaration.ofHeader, interfaces, ← List.head?_filter, superclass, Heading.declaration]
  cases heading.superclass <;> simp [Clause.named]

/-! ### Reading declarations -/

theorem TypeKind.endsModifiers (kind : TypeKind) (rest : List Token) :
    EndsModifiers kind.start rest := by
  cases kind with
  | «class» | interface | enumeration | record | annotationType =>
    exact ⟨by decide, by decide, by decide, fun non => absurd non (by decide)⟩

/-- Behind the modifiers of a declaration comes its keyword. -/
theorem Declares.afterModifiers {heading : Heading} {tokens : List Token}
    (declares : Declares heading tokens) :
    ∃ gap header body, Gap gap ∧ Header heading header ∧ Body body ∧
      afterModifiers tokens.length tokens =
        heading.kind.start :: (gap ++ .ofWord heading.name :: (header ++ body)) := by
  obtain ⟨⟨modifiers, gap, header⟩, body⟩ := declares
  refine ⟨_, _, _, gap, header, body, ?_⟩
  simp only [List.append_assoc, List.cons_append]
  refine modifiers.afterModifiers (heading.kind.endsModifiers _) ?_ (by simp)
  cases heading.kind <;> exact .inl (by decide)

/-- Behind the name of a record come type parameters or components. -/
theorem Header.isRecordHeader {heading : Heading} {gap header : List Token}
    (written : Header heading header) (body : List Token) (layout : Gap gap)
    (isRecord : heading.kind = .record) :
    Item.isRecordHeader (gap ++ .ofWord heading.name :: (header ++ body)) = true := by
  obtain ⟨particulars, _, _, _, _⟩ := written
  rw [isRecord] at particulars
  cases particulars with
  | parameters other _ => exact absurd rfl other
  | components parameters inside behind =>
    cases parameters with
    | none before =>
      simp [Item.isRecordHeader, layout.skipLayout_cons, before.skipLayout_cons]
    | list before angled behind =>
      simp [Item.isRecordHeader, layout.skipLayout_cons, before.skipLayout_cons]

/-- Of the declaration of a type its heading is kept. -/
theorem Declares.ofTokens?_eq {heading : Heading} {tokens : List Token}
    (declares : Declares heading tokens) :
    Item.ofTokens? tokens = some (.declared heading.declaration) := by
  obtain ⟨gap, header, body, layout, written, block, behind⟩ := declares.afterModifiers
  have read : Item.ofDeclaration? heading.kind (gap ++ .ofWord heading.name :: (header ++ body)) =
      some (.declared heading.declaration) := by
    rw [Item.ofDeclaration?, layout.skipLayout_cons (Token.isLayout_ofWord _)]
    simp [Token.ofWord, Token.isWord, written.ofHeader block]
  have isRecord := written.isRecordHeader body layout
  rw [Item.ofTokens?, behind]
  cases kind : heading.kind with
  | «class» | interface | enumeration | annotationType =>
    simpa [TypeKind.start, Token.isTheWord_ofWord, kind] using read
  | record => simpa [TypeKind.start, Token.isTheWord_ofWord, kind, isRecord kind] using read

end TypeLineage.Java
