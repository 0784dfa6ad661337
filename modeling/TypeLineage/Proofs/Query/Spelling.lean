import TypeLineage.Proofs.Json.Objects
import TypeLineage.Proofs.Query.Lines
import TypeLineage.Query.Decode

/-!
# Queries as they are written

A query is written as an object with a member for its operation, for its type and, where it needs
one, for its target. The wish to release is another member, which may be left out if there is no
such wish. The members stand in any order, with blanks between the parts, and every text in any
spelling. A line that is written in this way is read as the query.
-/

namespace TypeLineage.Query

open Json

/-- The members for what is asked. -/
def questionMembers : Engine.Question → List (String × Json)
  | .superclass type => [("op", .string "supertype"), ("type_name", .string type)]
  | .interfaces type => [("op", .string "interfaces"), ("type_name", .string type)]
  | .extendsClass type target =>
    [("op", .string "extends"), ("type_name", .string type), ("super_name", .string target)]
  | .implementsInterface type target =>
    [("op", .string "implements"), ("type_name", .string type), ("interface_name", .string target)]

/-- The members of a query, in one order. -/
inductive Members (query : Query) : List (String × Json) → Prop where
  /-- With the wish to release. -/
  | given : Members query (questionMembers query.question ++ [("cleanup", .bool query.cleanup)])
  /-- Without it, if there is none. -/
  | omitted (none : query.cleanup = false) : Members query (questionMembers query.question)

/-- The ways to write a query on a line. -/
def Spells (query : Query) (line : List Char) : Prop :=
  ∃ members order before object after, Members query members ∧ order.Perm members ∧
    SpellsObject order object ∧ Blanks before ∧ Blanks after ∧ line = before ++ (object ++ after)

/-! ### Members in any order -/

/-- What is found when one more of a query's members is read. -/
inductive Found.Adds (fields : Fields) (found : Found) : String × Json → Found → Prop where
  /-- The type. -/
  | type {text : String} (fresh : found.type = none) :
      Adds fields found (typeField, .string text) { found with type := some text }
  /-- The target. -/
  | target {name text : String} (own : fields.target = some name) (other : name ≠ typeField)
      (fresh : found.target = none) :
      Adds fields found (name, .string text) { found with target := some text }
  /-- The wish to release. -/
  | cleanup {value : Bool} (other : fields.target ≠ some cleanupField)
      (fresh : found.cleanup = none) :
      Adds fields found (cleanupField, .bool value) { found with cleanup := some value }

/-- What is found when several of them are read. -/
inductive Found.Gathers (fields : Fields) : Found → List (String × Json) → Found → Prop where
  /-- None is left. -/
  | nil {found : Found} : Gathers fields found [] found
  /-- One after the other. -/
  | cons {found found₁ found₂ : Found} {member : String × Json} {members : List (String × Json)}
      (first : found.Adds fields member found₁) (rest : Gathers fields found₁ members found₂) :
      Gathers fields found (member :: members) found₂

namespace Found

variable {fields : Fields} {found found₁ found₂ : Found} {first second : String × Json}
  {members order : List (String × Json)}

theorem Adds.eq (h : found.Adds fields first found₁) :
    found.add fields first.1 first.2 = .ok found₁ := by
  cases h with
  | type fresh => simp [add, refuseTwice, fresh, asString, bind, Except.bind, pure, Except.pure]
  | target own other fresh =>
    simp [add, refuseTwice, fresh, asString, bind, Except.bind, pure, Except.pure, other, own]
  | cleanup other fresh =>
    have differs : cleanupField ≠ typeField := by decide
    simp [add, refuseTwice, fresh, asBool, bind, Except.bind, pure, Except.pure, differs,
      Ne.symm other]

/-- Two members may change places. -/
theorem Adds.swap (h : found.Adds fields first found₁) (h' : found₁.Adds fields second found₂) :
    ∃ other, found.Adds fields second other ∧ other.Adds fields first found₂ := by
  cases h with
  | type fresh =>
    cases h' with
    | type fresh' => cases fresh'
    | target own other fresh' => exact ⟨_, .target own other fresh', .type fresh⟩
    | cleanup other fresh' => exact ⟨_, .cleanup other fresh', .type fresh⟩
  | target own other fresh =>
    cases h' with
    | type fresh' => exact ⟨_, .type fresh', .target own other fresh⟩
    | target _ _ fresh' => cases fresh'
    | cleanup other' fresh' => exact ⟨_, .cleanup other' fresh', .target own other fresh⟩
  | cleanup other fresh =>
    cases h' with
    | type fresh' => exact ⟨_, .type fresh', .cleanup other fresh⟩
    | target own other' fresh' => exact ⟨_, .target own other' fresh', .cleanup other fresh⟩
    | cleanup _ fresh' => cases fresh'

/-- So the order of the members makes no difference. -/
theorem Gathers.perm (perm : order.Perm members) (h : Gathers fields found members found₂) :
    Gathers fields found order found₂ := by
  induction perm generalizing found with
  | nil => exact h
  | cons member _ ih =>
    cases h with
    | cons first rest => exact .cons first (ih rest)
  | swap second first members =>
    cases h with
    | cons add rest =>
      cases rest with
      | cons add' rest =>
        obtain ⟨other, add', add⟩ := add.swap add'
        exact .cons add' (.cons add rest)
  | trans _ _ ih ih' => exact ih (ih' h)

theorem Gathers.eq (h : Gathers fields found members found₂) :
    members.foldlM (fun (found : Found) (name, value) => found.add fields name value) found =
      .ok found₂ := by
  induction h with
  | nil => rfl
  | @cons found _ _ member _ first _ ih =>
    have added : (match member with | (name, value) => found.add fields name value) = _ := first.eq
    rw [List.foldlM_cons, added]
    exact ih

end Found

variable {query : Query} {members : List (String × Json)} {line : List Char}

/-! ### From the members to the query -/

theorem target_ne_cleanupField (operation : Operation) :
    (fieldsOf operation).target ≠ some cleanupField := by
  cases operation <;> decide

/-- The members other than the tag are what the operation asks for. -/
theorem Members.gathers (h : Members query members) :
    ∃ cleanup : Option Bool, cleanup.getD false = query.cleanup ∧
      Found.Gathers (fieldsOf query.question.operation) {}
        (members.filter fun member => member.1 ≠ form.tagName)
        { type := some query.question.type, target := query.question.target?, cleanup } := by
  obtain ⟨question, cleanup⟩ := query
  cases h with
  | given =>
    refine ⟨some cleanup, rfl, ?_⟩
    cases question with
    | superclass type =>
      exact .cons (.type rfl) (.cons (.cleanup (target_ne_cleanupField _) rfl) .nil)
    | interfaces type =>
      exact .cons (.type rfl) (.cons (.cleanup (target_ne_cleanupField _) rfl) .nil)
    | extendsClass type target =>
      exact .cons (.type rfl) (.cons (.target rfl (by decide) rfl)
        (.cons (.cleanup (target_ne_cleanupField _) rfl) .nil))
    | implementsInterface type target =>
      exact .cons (.type rfl) (.cons (.target rfl (by decide) rfl)
        (.cons (.cleanup (target_ne_cleanupField _) rfl) .nil))
  | omitted none =>
    refine ⟨Option.none, none.symm, ?_⟩
    cases question with
    | superclass type | interfaces type => exact .cons (.type rfl) .nil
    | extendsClass type target | implementsInterface type target =>
      exact .cons (.type rfl) (.cons (.target rfl (by decide) rfl) .nil)

theorem ofName?_name (operation : Operation) : Operation.ofName? operation.name = some operation := by
  cases operation <;> decide

/-- The members in any order are those of the query. -/
theorem Members.ofTagged (h : Members query members) {others : List (String × Json)}
    (perm : others.Perm (members.filter fun member => member.1 ≠ form.tagName)) :
    ofTagged { tag := query.question.operation.name, content := .members others } = .ok query := by
  obtain ⟨cleanup, wished, gathers⟩ := h.gathers
  have found := (gathers.perm perm).eq
  obtain ⟨question, wish⟩ := query
  rw [Query.ofTagged, ofName?_name]
  dsimp only at found wished ⊢
  rw [ofMembers, found]
  subst wished
  cases question <;> rfl

theorem name_mem_tags (operation : Operation) : operation.name ∈ form.tags := by
  cases operation <;> decide

/-- No member is given twice, and one of them is the tag. -/
theorem Members.tagged (h : Members query members) :
    (members.map Prod.fst).Nodup ∧
      (form.tagName, .string query.question.operation.name) ∈ members := by
  obtain ⟨question, wish⟩ := query
  cases h <;> cases question <;> exact ⟨by simp [questionMembers], .head _⟩

/-- A line that is written as a query is read as it. -/
theorem Spells.reads (h : Spells query line) : Reads line query := by
  obtain ⟨members, order, before, object, after, forms, perm, spells, blanks, blanks', rfl⟩ := h
  obtain ⟨distinct, tagged⟩ := forms.tagged
  have tags := tags_of_mem (name_mem_tags query.question.operation)
    ((perm.map Prod.fst).nodup_iff.mpr distinct) (perm.mem_iff.mpr tagged)
  obtain ⟨read, ran⟩ := spells.gives blanks tags 0
  obtain ⟨read', ended⟩ := gives_readEnd blanks' read
  have start : Cursor.start (String.ofList (before ++ (object ++ after))) =
      ⟨encoded (before ++ object) ++ encoded after, 0⟩ := by
    rw [Cursor.start, toUTF8_ofList, ← List.append_assoc, encoded_append (before ++ object)]
  rw [Reads, ofLine, start, ran]
  show (do
    let query ← ofTagged _
    let _ ← readEnd.run ⟨encoded after, read⟩
    return query : Except Fault Query) = _
  rw [forms.ofTagged (perm.filter _), ended]
  rfl

end TypeLineage.Query
