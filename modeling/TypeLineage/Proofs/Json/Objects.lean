import TypeLineage.Json.Tagged
import TypeLineage.Proofs.Json.Spelling

/-!
# Objects as they are written

The members of an object stand between braces, with commas between them and colons behind their
names, and blanks between all of these. An object whose members are texts and truth values, one of
them the tag, is read as that tag and the other members in their order, wherever the tag stands.
-/

namespace TypeLineage.Json

/-- Blanks between the parts of a value. -/
def Blanks (text : List Char) : Prop :=
  ∀ c ∈ text, c = ' ' ∨ c = '\t' ∨ c = '\n' ∨ c = '\r'

/-- The ways to write a text or a truth value. -/
inductive SpellsValue : Json → List Char → Prop where
  /-- A text. -/
  | string {text : String} {written : List Char} (spells : SpellsString text written) :
      SpellsValue (.string text) written
  /-- A truth value. -/
  | bool (value : Bool) : SpellsValue (.bool value) (toString value).toList

/-- The ways to write a member of an object. -/
inductive SpellsMember : String × Json → List Char → Prop where
  /-- Its name and its value, with a colon between them. -/
  | mk {name : String} {value : Json} {first second before after : List Char}
      (named : SpellsString name first) (blanks : Blanks before) (blanks' : Blanks after)
      (valued : SpellsValue value second) :
      SpellsMember (name, value) (first ++ (before ++ ':' :: (after ++ second)))

/-- The ways to write what follows a member up to the closing brace. -/
inductive SpellsRest : List (String × Json) → List Char → Prop where
  /-- There are no more members. -/
  | close {before : List Char} (blanks : Blanks before) : SpellsRest [] (before ++ ['}'])
  /-- There is another member. -/
  | more {member : String × Json} {members : List (String × Json)}
      {before after first rest : List Char} (blanks : Blanks before) (blanks' : Blanks after)
      (one : SpellsMember member first) (others : SpellsRest members rest) :
      SpellsRest (member :: members) (before ++ ',' :: (after ++ (first ++ rest)))

/-- The ways to write an object that has members. -/
inductive SpellsObject : List (String × Json) → List Char → Prop where
  /-- The first member follows the opening brace. -/
  | mk {member : String × Json} {members : List (String × Json)} {before first rest : List Char}
      (blanks : Blanks before) (one : SpellsMember member first)
      (others : SpellsRest members rest) :
      SpellsObject (member :: members) ('{' :: (before ++ (first ++ rest)))

variable {before text written : List Char} {rest : List UInt8} {byte : UInt8} {value : Json}

/-! ### Blanks -/

theorem Blanks.nil : Blanks [] := by
  simp [Blanks]

theorem Blanks.isBlankByte_of_mem (blanks : Blanks before) (member : byte ∈ encoded before) :
    isBlankByte byte = true := by
  obtain ⟨c, here, member⟩ := List.mem_flatMap.mp member
  have read : c.toNat < 128 ∧ isBlankByte (byteOf c) = true := by
    rcases blanks c here with rfl | rfl | rfl | rfl <;> decide
  obtain ⟨ascii, blank⟩ := read
  rw [bytesOf_ascii ascii] at member
  obtain rfl := List.mem_singleton.mp member
  exact blank

/-- Blanks are skipped up to something else. -/
theorem gives_skipBlanks (blanks : Blanks before) (stops : rest.takeWhile isBlankByte = []) :
    Gives skipBlanks (encoded before ++ rest) () rest := by
  have skipped : (encoded before ++ rest).takeWhile isBlankByte = encoded before := by
    rw [List.takeWhile_append_of_pos fun byte => blanks.isBlankByte_of_mem, stops, List.append_nil]
  have given : Gives (Reading.skip (encoded before).length) (encoded before ++ rest) () _ := .skip _
  rw [List.drop_left] at given
  refine Gives.get_bind fun _ => ?_
  dsimp only
  rwa [skipped]

theorem gives_peekPart? (blanks : Blanks before) (visible : isBlankByte byte = false) :
    Gives peekPart? (encoded before ++ byte :: rest) (some byte) (byte :: rest) :=
  .bind (gives_skipBlanks blanks (by simp [visible])) .peek?

theorem gives_peekPart?_end (blanks : Blanks before) :
    Gives peekPart? (encoded before) none [] := by
  have skipped : Gives skipBlanks (encoded before ++ []) () [] := gives_skipBlanks blanks rfl
  rw [List.append_nil] at skipped
  exact .bind skipped .peek?

/-- Behind the blanks nothing is left. -/
theorem gives_readEnd (blanks : Blanks before) : Gives readEnd (encoded before) () [] :=
  .bind (gives_peekPart?_end blanks) .pure

/-! ### Values -/

/-- A word of letters is read to its end. -/
theorem gives_readWord {letters : List Char} (ascii : ∀ c ∈ letters, c.toNat < 128) :
    Gives (readWord letters) (encoded letters ++ rest) () rest := by
  induction letters with
  | nil => exact .pure
  | cons c letters ih =>
    have here := ascii c (.head _)
    rw [encoded_cons_ascii here]
    refine .bind .next? ?_
    dsimp only
    rw [if_pos (by simp [isThe_byteOf here])]
    exact ih fun other member => ascii other (.tail _ member)

/-- A text or a truth value is read from its first byte on. -/
theorem SpellsValue.gives (h : SpellsValue value written) :
    ∃ first more, encoded written = first :: more ∧ isBlankByte first = false ∧
      isThe '[' first = false ∧ isThe '{' first = false ∧
      ∀ rest, Gives (readScalar first) (first :: (more ++ rest)) value rest := by
  cases h with
  | string spells =>
    obtain ⟨inner, same, gives⟩ := spells.gives
    refine ⟨_, _, same, by decide, by decide, by decide, fun rest => ?_⟩
    exact .bind (.skip 1) (.bind (gives rest) .pure)
  | bool value =>
    cases value with
    | true =>
      have same : (toString true).toList = 't' :: ['r', 'u', 'e'] := by decide
      rw [same, encoded_cons_ascii (by decide)]
      refine ⟨_, _, rfl, by decide, by decide, by decide, ?_⟩
      exact fun rest => .bind (.skip 1) (.bind (gives_readWord (by simp)) .pure)
    | false =>
      have same : (toString false).toList = 'f' :: ['a', 'l', 's', 'e'] := by decide
      rw [same, encoded_cons_ascii (by decide)]
      refine ⟨_, _, rfl, by decide, by decide, by decide, ?_⟩
      exact fun rest => .bind (.skip 1) (.bind (gives_readWord (by simp)) .pure)

/-- Behind blanks a value is read as what it spells. -/
theorem SpellsValue.gives_readValue (h : SpellsValue value written) (blanks : Blanks before)
    (budget depth : Nat) :
    Gives (readValue (budget + 1) depth) (encoded (before ++ written) ++ rest) value rest := by
  obtain ⟨first, more, same, visible, noList, noObject, gives⟩ := h.gives
  rw [encoded_append, same, List.append_assoc]
  rw [readValue]
  refine .bind (gives_peekPart? blanks visible) ?_
  dsimp only
  rw [if_neg (by simp [noList, noObject])]
  exact gives rest

/-- Behind blanks a known tag is read as what it spells. -/
theorem SpellsString.gives_readTag {form : TaggedForm} {tag : String}
    (h : SpellsString tag written) (blanks : Blanks before) (known : tag ∈ form.tags) :
    Gives (readTag form) (encoded (before ++ written) ++ rest) tag rest := by
  obtain ⟨first, more, same, visible, noList, noObject, gives⟩ := (SpellsValue.string h).gives
  rw [encoded_append, same, List.append_assoc]
  refine .bind (gives_peekPart? blanks visible) ?_
  dsimp only
  rw [if_neg (by simp [noList]), if_neg (by simp [noObject])]
  refine .bind (gives rest) ?_
  dsimp only
  rw [if_pos known]
  exact .pure

/-! ### Members -/

variable {form : TaggedForm} {budget : Nat} {isFirst : Bool} {tag? : Option String} {tag : String}
  {member : String × Json} {members others kept : List (String × Json)} {result : Tagged}
  {start after : List UInt8}

/-- Members with a tag among them, unless it has been met, and the others. -/
inductive Tags (form : TaggedForm) (tag : String) :
    Option String → List (String × Json) → List (String × Json) → Prop where
  /-- There are no more members, and the tag has been met. -/
  | done : Tags form tag (some tag) [] []
  /-- The tag is met. -/
  | tag {members others : List (String × Json)} (known : tag ∈ form.tags)
      (rest : Tags form tag (some tag) members others) :
      Tags form tag none ((form.tagName, .string tag) :: members) others
  /-- Another member is met. -/
  | other {tag? : Option String} {name : String} {value : Json}
      {members others : List (String × Json)} (differs : name ≠ form.tagName)
      (rest : Tags form tag tag? members others) :
      Tags form tag tag? ((name, value) :: members) ((name, value) :: others)

theorem gives_hasNextMember_first (blanks : Blanks before) :
    Gives (hasNextMember true) (encoded before ++ byteOf '"' :: rest) true (byteOf '"' :: rest) := by
  refine .bind (gives_peekPart? blanks (by decide)) ?_
  dsimp only
  rw [if_neg (by decide), if_pos rfl, if_pos (by decide)]
  exact .pure

theorem gives_hasNextMember_comma {between : List Char} (blanks : Blanks before)
    (blanks' : Blanks between) :
    Gives (hasNextMember false)
      (encoded before ++ byteOf ',' :: (encoded between ++ byteOf '"' :: rest)) true
      (byteOf '"' :: rest) := by
  refine .bind (gives_peekPart? blanks (by decide)) ?_
  dsimp only
  rw [if_neg (by decide), if_neg (by decide), if_pos (by decide)]
  refine .bind (.skip 1) (.bind (gives_peekPart? blanks' (by decide)) ?_)
  dsimp only
  rw [if_pos (by decide)]
  exact .pure

theorem gives_hasNextMember_close (blanks : Blanks before) (isFirst : Bool) :
    Gives (hasNextMember isFirst) (encoded before ++ byteOf '}' :: rest) false
      (byteOf '}' :: rest) := by
  refine .bind (gives_peekPart? blanks (by decide)) ?_
  dsimp only
  rw [if_pos (by decide)]
  exact .pure

theorem gives_readColon (blanks : Blanks before) :
    Gives readColon (encoded before ++ byteOf ':' :: rest) () rest := by
  refine .bind (gives_peekPart? blanks (by decide)) ?_
  dsimp only
  rw [if_pos (by decide)]
  exact .skip 1

theorem SpellsString.gives_readName {name : String} (h : SpellsString name written) :
    Gives readName (encoded written ++ rest) name rest := by
  obtain ⟨inner, same, gives⟩ := h.gives
  rw [same]
  exact .bind (.skip 1) (gives rest)

/-- A member begins with a quote. -/
theorem SpellsMember.head (one : SpellsMember member written) :
    ∃ more, encoded written = byteOf '"' :: more := by
  cases one with
  | mk named =>
    obtain ⟨inner, same, -⟩ := named.gives
    exact ⟨_, by rw [encoded_append, same, List.cons_append]⟩

/-- One member is read, and the reading goes on behind it. -/
theorem SpellsMember.gives (one : SpellsMember member written)
    (next : Gives (hasNextMember isFirst) start true (encoded written ++ rest))
    (goesOn : ∀ {tag? others}, Tags form tag tag? members others → ∀ kept,
      Gives (readTaggedMembers form (budget + 1) false tag? kept) rest
        { tag, content := .members (kept.reverse ++ others) } after)
    (tags : Tags form tag tag? (member :: members) others) (kept : List (String × Json)) :
    Gives (readTaggedMembers form (budget + 2) isFirst tag? kept) start
      { tag, content := .members (kept.reverse ++ others) } after := by
  obtain @⟨name, value, first, second, before, between, named, blanks, blanks', valued⟩ := one
  simp only [encoded_append, encoded_cons_ascii (show ':'.toNat < 128 by decide),
    List.append_assoc, List.cons_append] at next
  refine .bind next ?_
  rw [if_pos rfl]
  refine .bind named.gives_readName ?_
  -- The tag is read as such, while any other member is put in front of those that were kept.
  cases tags with
  | tag known tags =>
    rw [if_pos rfl, if_neg (by decide)]
    refine .bind (gives_readColon blanks) ?_
    cases valued with
    | string spells =>
      have read : Gives (readTag form) (encoded (between ++ second) ++ rest) tag rest :=
        spells.gives_readTag blanks' known
      rw [encoded_append, List.append_assoc] at read
      exact .bind read (goesOn tags kept)
  | other differs tags =>
    rw [if_neg differs]
    refine .bind (gives_readColon blanks) ?_
    have read : Gives (readValue (budget + 1) (deepest - 1)) (encoded (between ++ second) ++ rest)
        value rest := valued.gives_readValue blanks' budget (deepest - 1)
    rw [encoded_append, List.append_assoc] at read
    refine .bind read ?_
    have given := goesOn tags ((name, value) :: kept)
    rwa [List.reverse_cons, List.append_assoc] at given

/-- All further members are read up to the closing brace. -/
theorem SpellsRest.gives (h : SpellsRest members written) (enough : members.length < budget)
    (tags : Tags form tag tag? members others) (kept : List (String × Json)) :
    Gives (readTaggedMembers form (budget + 1) false tag? kept) (encoded written ++ rest)
      { tag, content := .members (kept.reverse ++ others) } rest := by
  induction h generalizing budget tag? others kept with
  | close blanks =>
    cases tags with
    | done =>
      rw [encoded_append, encoded_cons_ascii (by decide), encoded_nil, List.append_assoc,
        List.append_nil]
      refine .bind (gives_hasNextMember_close blanks false) ?_
      exact .bind (.skip 1) .pure
  | @more member members before between first more blanks blanks' one others ih =>
    -- Each member takes one from the budget, and there are fewer of them.
    obtain ⟨budget, rfl⟩ : ∃ left, budget = left + 1 := ⟨budget - 1, by omega⟩
    obtain ⟨tail, same⟩ := one.head
    have next : Gives (hasNextMember false)
        (encoded (before ++ ',' :: (between ++ (first ++ more))) ++ rest) true
        (encoded first ++ (encoded more ++ rest)) := by
      have given : Gives (hasNextMember false) _ true
          (byteOf '"' :: (tail ++ (encoded more ++ rest))) := gives_hasNextMember_comma blanks blanks'
      simpa [encoded_append, encoded_cons_ascii (show ','.toNat < 128 by decide), same] using given
    exact one.gives next (ih (by simpa using enough)) tags kept

theorem SpellsRest.length_lt (h : SpellsRest members written) :
    members.length < (encoded written).length := by
  induction h with
  | close =>
    rw [encoded_append, encoded_cons_ascii (by decide)]
    simp
  | more _ _ _ _ ih =>
    rw [encoded_append, encoded_cons_ascii (by decide)]
    simp only [encoded_append, List.length_append, List.length_cons]
    omega

theorem gives_fullBudget : Gives fullBudget rest (2 * rest.length + 2) rest :=
  .get_bind fun _ => .pure

/-- An object is read as its tag and the other members. -/
theorem SpellsObject.gives (h : SpellsObject members written) (blanks : Blanks before)
    (tags : Tags form tag none members others) :
    Gives (readTagged form) (encoded (before ++ written) ++ rest)
      { tag, content := .members others } rest := by
  obtain @⟨member, members, between, first, more, blanks', one, further⟩ := h
  obtain ⟨tail, same⟩ := one.head
  have few := further.length_lt
  rw [encoded_append, encoded_cons_ascii (by decide), List.append_assoc, List.cons_append]
  refine .bind (gives_peekPart? blanks (by decide)) ?_
  dsimp only
  rw [if_pos (by decide)]
  have next : Gives (hasNextMember true) (encoded (between ++ (first ++ more)) ++ rest) true
      (encoded first ++ (encoded more ++ rest)) := by
    have given : Gives (hasNextMember true) _ true (byteOf '"' :: (tail ++ (encoded more ++ rest))) :=
      gives_hasNextMember_first blanks'
    simpa [encoded_append, same] using given
  refine .bind (.skip 1) (.bind gives_fullBudget ?_)
  -- The budget is twice the number of bytes that are left, and a member has at least one.
  refine one.gives next (further.gives ?_) tags []
  simp only [encoded_append, List.length_append, List.drop_succ_cons, List.drop_zero]
  omega

/-- The tag may be any of the members. -/
theorem tags_of_mem (known : tag ∈ form.tags) (distinct : (members.map Prod.fst).Nodup)
    (tagged : (form.tagName, .string tag) ∈ members) :
    Tags form tag none members (members.filter fun member => member.1 ≠ form.tagName) := by
  have untagged : ∀ {members : List (String × Json)}, form.tagName ∉ members.map Prod.fst →
      Tags form tag (some tag) members
        (members.filter fun member => member.1 ≠ form.tagName) := by
    intro members absent
    induction members with
    | nil => exact .done
    | cons member members ih =>
      simp only [List.map_cons, List.mem_cons, not_or] at absent
      rw [List.filter_cons_of_pos (by simpa using Ne.symm absent.1)]
      exact .other (Ne.symm absent.1) (ih absent.2)
  induction members with
  | nil => cases tagged
  | cons member members ih =>
    obtain ⟨fresh, distinct⟩ := List.nodup_cons.mp distinct
    rcases List.mem_cons.mp tagged with rfl | tagged
    · rw [List.filter_cons_of_neg (by simp)]
      exact .tag known (untagged fresh)
    · have differs : member.1 ≠ form.tagName := by
        intro same
        exact fresh (List.mem_map.mpr ⟨_, tagged, same.symm⟩)
      rw [List.filter_cons_of_pos (by simpa using differs)]
      exact .other differs (ih distinct tagged)

end TypeLineage.Json
