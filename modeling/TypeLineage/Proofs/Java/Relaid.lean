import TypeLineage.Proofs.Java.Drafts
import TypeLineage.Proofs.Java.Layout

/-!
# Texts that differ in layout

Two texts may have the same tokens and differ in the layout between them. Then they declare the same
types in the same package and have the same imports, but for layout within the names of the package
and of the imports, which is kept (`Unit.layout_kept_within_names_only`). So layout makes no
difference where these names are written without, and none to supertypes where all of it is blank.
-/

namespace TypeLineage.Java

/-! ### Names are tokens again -/

/-- A text that ends in a word has the same tokens without what comes behind. -/
theorem tokens_of_word_end {init behind : List Token} {last : Token} {back : List Char}
    (word : last.isWord = true)
    (cut : tokens ((init ++ [last]).flatMap Token.text ++ back) = init ++ last :: behind) :
    tokens ((init ++ [last]).flatMap Token.text) = init ++ [last] := by
  induction init with
  | nil =>
    have member : last ∈ tokens (([] ++ [last]).flatMap Token.text ++ back) := by rw [cut]; simp
    have isWord : IsWord last.text :=
      ⟨text_ne_nil_of_mem_tokens member,
        List.all_eq_true.mpr (isWordChar_of_mem_tokens member word)⟩
    have alone : tokens (last.text ++ []) = ⟨.word, last.text⟩ :: tokens [] :=
      tokens_word isWord (by simp [Stops])
    have kind : last.kind = .word := beq_iff_eq.mp word
    rw [List.append_nil] at alone
    rw [List.nil_append, List.flatMap_singleton, alone, tokens, ← kind]
  | cons token init ih =>
    have written {other : Token} (member : other ∈ token :: init ++ last :: behind) :
        other.text ≠ [] :=
      text_ne_nil_of_mem_tokens (cut ▸ member)
    obtain ⟨first, text, start⟩ := List.exists_cons_of_ne_nil (written List.mem_cons_self)
    have more : 0 < ((init ++ [last]).flatMap Token.text).length := by
      have some : 0 < last.text.length := List.length_pos_iff.mpr (written (by simp))
      rw [List.flatMap_append, List.length_append, List.flatMap_singleton]
      omega
    rw [List.cons_append, List.flatMap_cons, start] at cut ⊢
    generalize (init ++ [last]).flatMap Token.text = front at cut ih more ⊢
    rw [List.cons_append, List.cons_append, tokens_cons, List.cons_append, List.cons.injEq] at cut
    obtain ⟨same, cut⟩ := cut
    -- The first token is followed by others, so that it is known where it ends.
    have taken := congrArg Token.text same
    rw [start, List.cons.injEq] at taken
    have count : (extent first (text ++ front ++ back)).2 = text.length := by
      have lengths := congrArg List.length taken.2
      simp only [List.length_take, List.length_append] at lengths
      omega
    have short : (extent first (text ++ front ++ back)).2 < (text ++ front).length := by
      rw [count, List.length_append]
      omega
    rw [count, List.append_assoc, List.drop_left] at cut
    rw [List.cons_append, tokens_cons, extent_of_short short, count, List.drop_left, ih cut, ← same,
      count, List.append_assoc, List.take_left, List.take_left]

/-- The tokens from the first word to the last one. -/
def nameTokens (tokens : List Token) : List Token :=
  let tokens := tokens.dropWhile fun token => !token.isWord
  (tokens.reverse.dropWhile fun token => !token.isWord).reverse

theorem dottedName_eq (tokens : List Token) : dottedName tokens = textOf (nameTokens tokens) := rfl

theorem visible_nameTokens (tokens : List Token) :
    visible (nameTokens tokens) = nameTokens (visible tokens) := by
  have layout (token : Token) (isLayout : token.isLayout = true) : (!token.isWord) = true := by
    rw [Token.isWord_of_isLayout isLayout]
    rfl
  simp only [nameTokens, visible_reverse, visible_dropWhile layout]

theorem infix_nameTokens (tokens : List Token) : nameTokens tokens <:+: tokens := by
  have back := List.dropWhile_suffix (fun token : Token => !token.isWord)
    (l := (tokens.dropWhile fun token => !token.isWord).reverse)
  have front := List.dropWhile_suffix (fun token : Token => !token.isWord) (l := tokens)
  rw [← List.reverse_prefix, List.reverse_reverse] at back
  exact back.isInfix.trans front.isInfix

/-- A name ends in a word. -/
theorem nameTokens_cases (tokens : List Token) :
    nameTokens tokens = [] ∨
      ∃ init last, nameTokens tokens = init ++ [last] ∧ last.isWord = true := by
  rw [nameTokens]
  cases ending : (tokens.dropWhile fun token => !token.isWord).reverse.dropWhile
      fun token => !token.isWord with
  | nil => exact .inl rfl
  | cons last init =>
    refine .inr ⟨init.reverse, last, by simp, ?_⟩
    have first : (List.dropWhile (fun token : Token => !token.isWord)
        (tokens.dropWhile fun token => !token.isWord).reverse).head? = some last := by
      rw [ending, List.head?_cons]
    simpa using Text.head_dropWhile_not first

/-- The text of a name has the tokens of which it has been made. -/
theorem tokens_dottedName {source : List Char} {part : List Token}
    (inside : part <:+: tokens source) : tokens (dottedName part).toList = nameTokens part := by
  obtain ⟨before, behind, whole⟩ := (infix_nameTokens part).trans inside
  have cut := tokens_behind (whole.symm.trans (List.append_assoc ..))
  rw [dottedName_eq, textOf, String.toList_ofList]
  rcases nameTokens_cases part with none | ⟨init, last, name, word⟩
  · rw [none, List.flatMap_nil, tokens]
  · rw [name, List.flatMap_append, List.append_assoc, List.singleton_append] at cut
    rw [name]
    exact tokens_of_word_end word cut

/-! ### Items -/

/-- Behind layout, texts that differ in layout go on with the same token. -/
theorem skipLayout_cases₂ {part other : List Token} (same : visible part = visible other) :
    skipLayout part = [] ∧ skipLayout other = [] ∨
      ∃ token rest rest', skipLayout part = token :: rest ∧ skipLayout other = token :: rest' ∧
        token.isLayout = false ∧ visible rest = visible rest' := by
  rcases skipLayout_cases part with ⟨skipped, none⟩ | ⟨token, rest, skipped, visibly, first⟩ <;>
    rcases skipLayout_cases other with ⟨skipped', none'⟩ | ⟨token', rest', skipped', -, first'⟩
  · exact .inl ⟨skipped, skipped'⟩
  · rw [none, first'] at same
    cases same
  · rw [first, none'] at same
    cases same
  · rw [first, first', List.cons.injEq] at same
    obtain ⟨rfl, same⟩ := same
    exact .inr ⟨token, rest, rest', skipped, skipped', visibly, same⟩

/-- Behind modifiers, too, unless one is divided. -/
theorem afterModifiers_cases₂ {part other : List Token} (same : visible part = visible other)
    (whole : divided part = false) (whole' : divided other = false) :
    afterModifiers part.length part = [] ∧ afterModifiers other.length other = [] ∨
      ∃ token rest rest', afterModifiers part.length part = token :: rest ∧
        afterModifiers other.length other = token :: rest' ∧ visible rest = visible rest' := by
  have left := visible_afterModifiers (le_refl part.length) (le_refl _) whole
  have left' := visible_afterModifiers (le_refl other.length) (le_refl _) whole'
  rw [same, ← left'] at left
  cases start : afterModifiers part.length part <;>
    cases start' : afterModifiers other.length other
  case nil.nil => exact .inl ⟨rfl, rfl⟩
  case nil.cons token rest =>
    rw [start, start', visible_cons (isLayout_of_afterModifiers (le_refl _) start')] at left
    cases left
  case cons.nil token rest =>
    rw [start, start', visible_cons (isLayout_of_afterModifiers (le_refl _) start)] at left
    cases left
  case cons.cons token rest token' rest' =>
    rw [start, start', visible_cons (isLayout_of_afterModifiers (le_refl _) start),
      visible_cons (isLayout_of_afterModifiers (le_refl _) start'), List.cons.injEq] at left
    obtain ⟨rfl, same⟩ := left
    exact .inr ⟨token, rest, rest', rfl, rfl, same⟩

/-- Two texts have the same tokens, but for the layout in them. -/
def Relaid (text other : String) : Prop :=
  visible (tokens text.toList) = visible (tokens other.toList)

/-- A text without layout. -/
def Solid (text : String) : Prop :=
  ∀ token ∈ tokens text.toList, token.isLayout = false

/-- Texts without layout are the same if their tokens are. -/
theorem Relaid.eq {text other : String} (relaid : Relaid text other) (solid : Solid text)
    (solid' : Solid other) : text = other := by
  rw [Relaid, visible_eq_self solid, visible_eq_self solid'] at relaid
  rw [← String.toList_inj, ← flatMap_text_tokens text.toList, relaid, flatMap_text_tokens]

/-- Two imports tell the same, but for layout. -/
structure Import.Relaid (imported other : Import) : Prop where
  /-- They name the same. -/
  path : Java.Relaid imported.path other.path
  /-- Both are on demand, or neither is. -/
  onDemand : imported.onDemand = other.onDemand

theorem Import.Relaid.eq {imported other : Import} (relaid : imported.Relaid other)
    (solid : Solid imported.path) (solid' : Solid other.path) : imported = other := by
  cases imported
  cases other
  exact congr (congrArg Import.mk (relaid.path.eq solid solid')) relaid.onDemand

theorem Import.eq_of_forall₂_relaid {imports others : List Import}
    (relaid : List.Forall₂ Import.Relaid imports others)
    (solid : ∀ imported ∈ imports, Solid imported.path)
    (solid' : ∀ imported ∈ others, Solid imported.path) : imports = others := by
  induction relaid with
  | nil => rfl
  | cons first _ ih =>
    rw [List.forall_mem_cons] at solid solid'
    rw [first.eq solid.1 solid'.1, ih solid.2 solid'.2]

/-- Two declarations are of the same type; if all layout is blank, they tell the same. -/
structure Declaration.Relaid (blank : Prop) (declaration other : Declaration) : Prop where
  /-- They declare the same kind of type. -/
  kind : declaration.kind = other.kind
  /-- They declare the same name. -/
  name : declaration.name = other.name
  /-- They name the same supertypes. -/
  eq : blank → declaration = other

/-- Two items tell the same, but for layout. -/
inductive Item.Relaid (blank : Prop) : Item → Item → Prop
  /-- Packages of the same name. -/
  | package {name other : String} : Java.Relaid name other →
    Relaid blank (.package name) (.package other)
  /-- The same imports. -/
  | imported {imported other : Import} : imported.Relaid other →
    Relaid blank (.imported imported) (.imported other)
  /-- Declarations of the same type. -/
  | declared {declaration other : Declaration} : declaration.Relaid blank other →
    Relaid blank (.declared declaration) (.declared other)

namespace Item

variable {source source' : List Char} {part other : List Token}

theorem relaid_dottedName (inside : part <:+: tokens source) (inside' : other <:+: tokens source')
    (same : visible part = visible other) : Java.Relaid (dottedName part) (dottedName other) := by
  rw [Java.Relaid, tokens_dottedName inside, tokens_dottedName inside', visible_nameTokens,
    visible_nameTokens, same]

theorem isEmpty_dottedName (inside : part <:+: tokens source) :
    (dottedName part).isEmpty = (visible (nameTokens part)).isEmpty := by
  have text := tokens_dottedName inside
  rcases nameTokens_cases part with none | ⟨init, last, name, word⟩
  · rw [dottedName_eq, none]
    rfl
  · have shown : visible (nameTokens part) = visible init ++ [last] := by
      rw [name, visible_append, visible_cons (Token.isLayout_of_isWord word), visible_nil]
    have some : dottedName part ≠ "" := by
      intro nothing
      rw [nothing, name] at text
      simp [tokens] at text
    have filled : (visible (nameTokens part)).isEmpty = false := by simp [shown]
    rw [filled]
    simpa using some

/-- Two items declare the same type if they differ in layout. -/
theorem ofDeclaration?_relaid {blank : Prop} (kind : TypeKind)
    (uncommented : blank → Uncommented part ∧ Uncommented other)
    (same : visible part = visible other) :
    Option.Rel (Relaid blank) (ofDeclaration? kind part) (ofDeclaration? kind other) := by
  rw [ofDeclaration?, ofDeclaration?]
  rcases skipLayout_cases₂ same with
    ⟨skipped, skipped'⟩ | ⟨name, rest, rest', skipped, skipped', -, same⟩
  · rw [skipped, skipped']
    exact .none
  · simp only [skipped, skipped']
    split_ifs
    · refine .some (.declared ⟨rfl, rfl, fun isBlank => ?_⟩)
      obtain ⟨first, second⟩ := uncommented isBlank
      rw [Declaration.ofHeader, Declaration.ofHeader,
        ← headerTypes_visible kind (first.mono (suffix_of_skipLayout skipped).subset), same,
        headerTypes_visible kind (second.mono (suffix_of_skipLayout skipped').subset)]
    · exact .none

/-- Two items import the same types if they differ in layout. -/
theorem ofImport?_relaid {blank : Prop} (inside : part <:+: tokens source)
    (inside' : other <:+: tokens source') (same : visible part = visible other) :
    Option.Rel (Relaid blank) (ofImport? part) (ofImport? other) := by
  have path := relaid_dottedName inside inside' same
  have star := any_isMark_visible part '*'
  rw [same, any_isMark_visible] at star
  have empty : (dottedName part).isEmpty = (dottedName other).isEmpty := by
    rw [isEmpty_dottedName inside, isEmpty_dottedName inside', visible_nameTokens,
      visible_nameTokens, same]
  simp only [ofImport?, head?_skipLayout, same, empty]
  split_ifs
  · exact .none
  · exact .some (.imported ⟨path, star.symm⟩)

/-- Where a modifier is divided, nothing is declared. -/
theorem ofTokens?_of_divided (apart : divided part = true) : ofTokens? part = none := by
  rw [divided] at apart
  rw [ofTokens?]
  cases left : afterModifiers part.length part with
  | nil => rfl
  | cons token rest =>
    rw [left, nonSealed, Bool.and_eq_true, Token.isTheWord_iff] at apart
    obtain ⟨rfl, -⟩ := apart
    simp [Token.isTheWord_ofWord]

/-- Two items that differ in layout tell the same, if neither divides a modifier or both do. -/
theorem ofTokens?_relaid {blank : Prop} (uncommented : blank → Uncommented part ∧ Uncommented other)
    (inside : part <:+: tokens source) (inside' : other <:+: tokens source')
    (same : visible part = visible other) (whole : divided part = divided other) :
    Option.Rel (Relaid blank) (ofTokens? part) (ofTokens? other) := by
  cases apart : divided part with
  | true =>
    rw [ofTokens?_of_divided apart, ofTokens?_of_divided (whole ▸ apart)]
    exact .none
  | false =>
    rcases afterModifiers_cases₂ same apart (whole.symm.trans apart) with
      ⟨start, start'⟩ | ⟨token, rest, rest', start, start', same⟩
    · rw [ofTokens?, ofTokens?, start, start']
      exact .none
    · have behind : rest <:+ part :=
        (List.suffix_cons token rest).trans (start ▸ afterModifiers_suffix part.length part)
      have behind' : rest' <:+ other :=
        (List.suffix_cons token rest').trans (start' ▸ afterModifiers_suffix other.length other)
      have inside := behind.isInfix.trans inside
      have inside' := behind'.isInfix.trans inside'
      have uncommented (isBlank : blank) : Uncommented rest ∧ Uncommented rest' :=
        (uncommented isBlank).imp (·.mono behind.subset) (·.mono behind'.subset)
      have declared (kind : TypeKind) := ofDeclaration?_relaid kind uncommented same
      have isRecord : isRecordHeader rest = isRecordHeader rest' := by
        rw [← isRecordHeader_visible, same, isRecordHeader_visible]
      rw [ofTokens?, ofTokens?, start, start']
      simp only [isRecord]
      split_ifs
      · exact declared .annotationType
      · exact .some (.package (relaid_dottedName inside inside' same))
      · exact ofImport?_relaid inside inside' same
      · exact declared .class
      · exact declared .interface
      · exact declared .enumeration
      · exact declared .record
      · exact .none

end Item

/-! ### Units -/

theorem flatten_itemsFrom (depth : Nat) (current tokens : List Token) :
    (itemsFrom depth current tokens).flatten = current.reverse ++ tokens := by
  induction tokens generalizing depth current with
  | nil => simp [itemsFrom]
  | cons token rest ih =>
    rw [itemsFrom]
    split_ifs <;> simp [ih]

/-- An item is part of its text. -/
theorem infix_of_mem_items {tokens item : List Token} (member : item ∈ items tokens) :
    item <:+: tokens := by
  have part := List.infix_of_mem_flatten member
  rwa [items, flatten_itemsFrom] at part

/-- The tokens of a source text. -/
def sourceTokens (source : String) : List Token :=
  tokens (Unit.withoutMark source.toList)

/-- Two source texts have the same tokens, but for layout. As to `non-sealed`, which is one token
where a modifier may stand, layout divides it in both or in neither. -/
structure SameTokens (source other : String) : Prop where
  /-- The same tokens are visible. -/
  shown : visible (sourceTokens source) = visible (sourceTokens other)
  /-- The same items have a divided modifier. -/
  parted : (items (sourceTokens source)).map divided = (items (sourceTokens other)).map divided

instance (source other : String) : Decidable (SameTokens source other) :=
  decidable_of_iff
    (visible (sourceTokens source) = visible (sourceTokens other) ∧
      (items (sourceTokens source)).map divided = (items (sourceTokens other)).map divided)
    ⟨fun same => ⟨same.1, same.2⟩, fun same => ⟨same.1, same.2⟩⟩

/-- The items of such texts have the same tokens, too. -/
theorem SameTokens.forall₂_items {source other : String} (same : SameTokens source other) :
    List.Forall₂
      (fun part part' => part <:+: sourceTokens source ∧ part' <:+: sourceTokens other ∧
        visible part = visible part' ∧ divided part = divided part')
      (items (sourceTokens source)) (items (sourceTokens other)) := by
  have pairs : (items (sourceTokens source)).map (fun part => (visible part, divided part)) =
      (items (sourceTokens other)).map fun part => (visible part, divided part) := by
    rw [← List.zip_map', ← List.zip_map', ← items_visible, ← items_visible, same.shown, same.parted]
  have alike : List.Forall₂
      (fun part part' => visible part = visible part' ∧ divided part = divided part')
      (items (sourceTokens source)) (items (sourceTokens other)) := by
    rw [← List.forall₂_eq_eq_eq, List.forall₂_map_left_iff, List.forall₂_map_right_iff] at pairs
    exact pairs.imp fun _ _ same => Prod.mk.inj same
  have inside := (List.forall₂_and_left _ _).mpr
    ⟨fun part (member : part ∈ items (sourceTokens other)) => infix_of_mem_items member, alike.flip⟩
  exact (List.forall₂_and_left _ _).mpr ⟨fun part => infix_of_mem_items, inside.flip⟩

namespace Unit

/-- Two units tell the same, but for layout. -/
structure Relaid (blank : Prop) (unit other : Unit) : Prop where
  /-- They have the same package. -/
  package : Java.Relaid unit.package other.package
  /-- They have the same imports in the same order. -/
  imports : List.Forall₂ Import.Relaid unit.imports other.imports
  /-- They declare the same types in the same order. -/
  declarations : List.Forall₂ (Declaration.Relaid blank) unit.declarations other.declarations

/-- There is no layout within the names of the package and of the imports. -/
structure Solid (unit : Unit) : Prop where
  /-- There is none in the package. -/
  package : Java.Solid unit.package
  /-- There is none in any import. -/
  imports : ∀ imported ∈ unit.imports, Java.Solid imported.path

section Relaid

variable {blank : Prop} {unit other : Unit}

theorem Relaid.add {item item' : Item} (relaid : unit.Relaid blank other)
    (same : item.Relaid blank item') : (unit.add item).Relaid blank (other.add item') := by
  cases same with
  | package name => exact { relaid with package := name }
  | imported imported =>
    exact { relaid with imports := List.rel_append relaid.imports (.cons imported .nil) }
  | declared declared =>
    exact { relaid with declarations := List.rel_append relaid.declarations (.cons declared .nil) }

/-- Beside a unit without layout in its names, another one differs in them by its own layout. -/
theorem Relaid.eq_iff_solid (relaid : unit.Relaid blank other) (solid : other.Solid) :
    unit.package = other.package ∧ unit.imports = other.imports ↔ unit.Solid := by
  constructor
  · rintro ⟨package, imports⟩
    exact ⟨package ▸ solid.package, imports ▸ solid.imports⟩
  · intro own
    exact ⟨relaid.package.eq own.package solid.package,
      Import.eq_of_forall₂_relaid relaid.imports own.imports solid.imports⟩

theorem Relaid.declarations_eq (relaid : unit.Relaid blank other) (isBlank : blank) :
    unit.declarations = other.declarations := by
  rw [← List.forall₂_eq_eq_eq]
  exact relaid.declarations.imp fun _ _ same => same.eq isBlank

end Relaid

theorem ofText?_relaid {source other : String} (same : SameTokens source other)
    (filled : Text.allBlank source.toList = false) (filled' : Text.allBlank other.toList = false) :
    ∃ unit unit', ofText? source = some unit ∧ ofText? other = some unit' ∧
      unit.Relaid (Uncommented (sourceTokens source) ∧ Uncommented (sourceTokens other)) unit' := by
  refine ⟨_, _, if_neg (by simp [filled]), if_neg (by simp [filled']), ?_⟩
  refine List.rel_foldl (fun _ _ relaid _ _ item => relaid.add item) ⟨rfl, .nil, .nil⟩ ?_
  refine List.rel_filterMap ?_ same.forall₂_items
  rintro part part' ⟨inside, inside', shown, parted⟩
  refine Item.ofTokens?_relaid (fun blank => ?_) inside inside' shown parted
  exact ⟨blank.1.mono inside.subset, blank.2.mono inside'.subset⟩

/-- **Layout is kept within names only.** Two source texts with the same tokens declare the same
types, and name the same package and the same imports, but for the layout that stands within these
names. Beside a text without such layout, the names of another one are the same exactly if it has
none either. Where all layout is blank, the types have the same supertypes, too. -/
theorem layout_kept_within_names_only {source other : String} (same : SameTokens source other)
    (filled : Text.allBlank source.toList = false) (filled' : Text.allBlank other.toList = false) :
    ∃ unit unit', ofText? source = some unit ∧ ofText? other = some unit' ∧
      unit.declarations.map (fun declared => (declared.kind, declared.name)) =
        unit'.declarations.map (fun declared => (declared.kind, declared.name)) ∧
      Java.Relaid unit.package unit'.package ∧
      List.Forall₂ Import.Relaid unit.imports unit'.imports ∧
      (unit'.Solid →
        (unit.package = unit'.package ∧ unit.imports = unit'.imports ↔ unit.Solid)) ∧
      (Uncommented (sourceTokens source) → Uncommented (sourceTokens other) →
        unit.declarations = unit'.declarations) := by
  obtain ⟨unit, unit', read, read', relaid⟩ := ofText?_relaid same filled filled'
  refine ⟨unit, unit', read, read', ?_, relaid.package, relaid.imports, relaid.eq_iff_solid,
    fun blank blank' => relaid.declarations_eq ⟨blank, blank'⟩⟩
  rw [← List.forall₂_eq_eq_eq, List.forall₂_map_left_iff, List.forall₂_map_right_iff]
  exact relaid.declarations.imp fun _ _ same => Prod.ext same.kind same.name

/-- Layout within names does not show in what is declared. -/
theorem declared_in_spaced_package :
    ∃ unit unit', ofText? "package a . b;non-sealed/**/class T extends S{}" = some unit ∧
      ofText? "package a.b;non-sealed class T extends S{}" = some unit' ∧
      unit.declarations.map (fun declared => (declared.kind, declared.name)) =
        unit'.declarations.map (fun declared => (declared.kind, declared.name)) := by
  have same : SameTokens "package a . b;non-sealed/**/class T extends S{}"
      "package a.b;non-sealed class T extends S{}" := by
    decide +kernel
  obtain ⟨unit, unit', read, read', declared, -⟩ :=
    layout_kept_within_names_only same (by decide) (by decide)
  exact ⟨unit, unit', read, read', declared⟩

/-- **Names keep layout**: blanks and comments within the names of a package and of an import are
kept. -/
theorem names_keep_layout :
    SameTokens "package a . b;import c./**/D;class T{}" "package a.b;import c.D;class T{}" ∧
    ofText? "package a . b;import c./**/D;class T{}" = some
      { package := "a . b"
        imports := [⟨"c./**/D", false⟩]
        declarations := [⟨.class, "T", none, []⟩] } ∧
    ofText? "package a.b;import c.D;class T{}" = some
      { package := "a.b"
        imports := [⟨"c.D", false⟩]
        declarations := [⟨.class, "T", none, []⟩] } := by
  decide +kernel

end Unit

end TypeLineage.Java
