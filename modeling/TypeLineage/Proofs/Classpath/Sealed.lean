import TypeLineage.Proofs.Classpath.Spellings

/-!
# What is probed for and what is read

A reader goes through its roots for two purposes: to find out whether there is a type at all, when a
name is resolved, and to read its source. Both go by the same roots in the same order, but an archive
with an entry that cannot be opened is passed over for the one purpose and decides for the other. The
two agree exactly where no such archive comes before the first root that has the type
(`probed_as_read_unless_sealed`).
-/

namespace TypeLineage

namespace Root

variable {disk : Files.Disk} {name : TypeName} {root : Root} {roots before after : List Root}

/-- An archive in which a type has an entry that cannot be opened. -/
def Sealed (name : TypeName) : Root → Prop
  | .directory _ => False
  | .archive _ content => ∃ entry defect, content.entry? name.sourcePath = some entry ∧
      content.openEntry entry = .error defect

/-- A root decides on the types that it has, and on those for which it is sealed. -/
theorem text?_ne_none_iff :
    root.text? disk name ≠ none ↔ root.has disk name = true ∨ root.Sealed name := by
  cases root with
  | directory path =>
    cases there : disk.isFile (unitPath path name) <;> simp [text?, has, Sealed, there]
  | archive path content =>
    cases listed : content.entry? name.sourcePath with
    | none => simp [text?, has, Archive.hasEntry, Sealed, listed]
    | some entry =>
      cases opened : content.openEntry entry <;>
        simp [text?, has, Archive.hasEntry, Sealed, listed, opened, Except.isOk, Except.toBool]

/-- What a root is sealed for it does not have. -/
theorem Sealed.has_eq (closed : root.Sealed name) : root.has disk name = false := by
  cases root with
  | directory path => exact closed.elim
  | archive path content =>
    obtain ⟨entry, defect, listed, refused⟩ := closed
    simp [has, Archive.hasEntry, listed, refused, Except.isOk, Except.toBool]

/-- It cannot be read there. -/
theorem Sealed.exists_text? (closed : root.Sealed name) (disk : Files.Disk) :
    ∃ path defect, root.text? disk name = some (.error (.archive path defect)) := by
  cases root with
  | directory path => exact closed.elim
  | archive path content =>
    obtain ⟨entry, defect, listed, refused⟩ := closed
    exact ⟨path, defect, by simp [text?, listed, refused]⟩

theorem has_eq_false_of_text? (silent : root.text? disk name = none) :
    root.has disk name = false := by
  by_contra there
  exact text?_ne_none_iff.mpr (.inl (Bool.eq_true_of_not_eq_false there)) silent

theorem firstText?_cons :
    firstText? disk (root :: roots) name =
      (root.text? disk name).or (firstText? disk roots name) := by
  rw [firstText?, List.findSome?_cons]
  cases root.text? disk name <;> rfl

/-- Roots that decide on nothing are passed over. -/
theorem firstText?_append (silent : ∀ other ∈ before, other.text? disk name = none) :
    firstText? disk (before ++ after) name = firstText? disk after name := by
  rw [firstText?, List.findSome?_append, List.findSome?_eq_none_iff.mpr silent, Option.none_or,
    firstText?]

/-- For a type, the roots are probed as they are read. -/
structure ProbeAgrees (disk : Files.Disk) (roots : List Root) (name : TypeName) : Prop where
  /-- A type is there if there is something to read, or something that keeps it from being read. -/
  there : anyHas disk roots name = true ↔ firstText? disk roots name ≠ none
  /-- The first root that has the type is the one that is read. -/
  first : ∀ before root after, roots = before ++ root :: after →
    (∀ other ∈ before, other.has disk name = false) → root.has disk name = true →
    (∀ other ∈ before, other.text? disk name = none) ∧
      firstText? disk roots name = root.text? disk name

/-- Roots are sealed in front for a type if a sealed one comes before all that have it. -/
def SealedInFront (disk : Files.Disk) (roots : List Root) (name : TypeName) : Prop :=
  ∃ before root after, roots = before ++ root :: after ∧
    (∀ other ∈ before, other.has disk name = false) ∧ root.Sealed name

theorem ProbeAgrees.not_sealedInFront (agrees : ProbeAgrees disk roots name) :
    ¬ SealedInFront disk roots name := by
  rintro ⟨before, root, after, rfl, lacking, closed⟩
  have decides : root.text? disk name ≠ none := text?_ne_none_iff.mpr (.inr closed)
  have found : firstText? disk (before ++ root :: after) name ≠ none := by
    intro nothing
    exact decides (List.findSome?_eq_none_iff.mp nothing root (by simp))
  -- Some root has the type. It comes after the sealed one, which has it not.
  obtain ⟨holder, member, has⟩ := List.any_eq_true.mp (agrees.there.mpr found)
  have later : holder ∈ after := by
    rcases List.mem_append.mp member with early | late
    · rw [lacking holder early] at has
      cases has
    · rcases List.mem_cons.mp late with rfl | late
      · rw [closed.has_eq] at has
        cases has
      · exact late
  obtain ⟨other, first⟩ := Option.isSome_iff_exists.mp
    (List.find?_isSome.mpr ⟨holder, later, has⟩)
  obtain ⟨has, between, behind, rfl, none⟩ := List.find?_eq_some_iff_append.mp first
  refine decides ((agrees.first (before ++ root :: between) other behind (by simp) ?_ has).1
    root (by simp))
  intro earlier member
  rcases List.mem_append.mp member with early | late
  · exact lacking earlier early
  · rcases List.mem_cons.mp late with rfl | late
    · exact closed.has_eq
    · simpa using none earlier late

/-- A root that does not have the type decides nothing, if the roots are not sealed in front. -/
theorem text?_eq_none_of_before (unsealed : ¬ SealedInFront disk (before ++ after) name)
    (lacking : ∀ other ∈ before, other.has disk name = false) :
    ∀ other ∈ before, other.text? disk name = none := by
  intro other member
  by_contra decides
  rcases text?_ne_none_iff.mp decides with has | closed
  · rw [lacking other member] at has
    cases has
  · obtain ⟨front, back, rfl⟩ := List.append_of_mem member
    refine unsealed ⟨front, other, back ++ after, by simp, ?_, closed⟩
    intro earlier early
    exact lacking earlier (List.mem_append_left _ early)

/-- In front of all roots that have the type, a sealed one keeps it from being read. -/
theorem SealedInFront.exists_firstText? (front : SealedInFront disk roots name) :
    ∃ path defect, firstText? disk roots name = some (.error (.archive path defect)) := by
  obtain ⟨before, root, after, rfl, lacking, closed⟩ := front
  induction before with
  | nil =>
    obtain ⟨path, defect, refused⟩ := closed.exists_text? disk
    exact ⟨path, defect, by rw [List.nil_append, firstText?_cons, refused, Option.some_or]⟩
  | cons other before ih =>
    rw [List.cons_append, firstText?_cons]
    cases decided : other.text? disk name with
    | none =>
      rw [Option.none_or]
      exact ih fun earlier member => lacking earlier (.tail _ member)
    | some text =>
      -- What decides without having the type is sealed itself.
      rcases text?_ne_none_iff.mp (decided ▸ Option.some_ne_none text) with has | closed
      · rw [lacking other (.head _)] at has
        cases has
      · obtain ⟨path, defect, refused⟩ := closed.exists_text? disk
        exact ⟨path, defect, by rw [← decided, refused, Option.some_or]⟩

/-- **Roots are probed as they are read unless they are sealed.** They are so for every type exactly
where they are not sealed in front. Where they are, the type cannot be read. -/
theorem probed_as_read_unless_sealed (disk : Files.Disk) (roots : List Root) (name : TypeName) :
    (ProbeAgrees disk roots name ↔ ¬ SealedInFront disk roots name) ∧
    (SealedInFront disk roots name →
      ∃ path defect, firstText? disk roots name = some (.error (.archive path defect))) := by
  refine ⟨⟨ProbeAgrees.not_sealedInFront, fun unsealed => ⟨⟨?_, ?_⟩, ?_⟩⟩,
    SealedInFront.exists_firstText?⟩
  · intro probed nothing
    obtain ⟨root, member, has⟩ := List.any_eq_true.mp probed
    exact text?_ne_none_iff.mpr (.inl has) (List.findSome?_eq_none_iff.mp nothing root member)
  · intro found
    obtain ⟨text, found⟩ := Option.ne_none_iff_exists'.mp found
    obtain ⟨before, root, after, rfl, decides, silent⟩ := List.findSome?_eq_some_iff.mp found
    have lacking : ∀ other ∈ before, other.has disk name = false :=
      fun other member => has_eq_false_of_text? (silent other member)
    rcases text?_ne_none_iff.mp (decides ▸ Option.some_ne_none text) with has | closed
    · exact List.any_eq_true.mpr ⟨root, by simp, has⟩
    · exact absurd ⟨before, root, after, rfl, lacking, closed⟩ unsealed
  · rintro before root after rfl lacking has
    have silent := text?_eq_none_of_before unsealed lacking
    obtain ⟨text, decides⟩ := Option.ne_none_iff_exists'.mp (text?_ne_none_iff.mpr (.inl has))
    exact ⟨silent, by rw [firstText?_append silent, firstText?_cons, decides, Option.some_or]⟩

/-- A directory is never sealed. -/
theorem probeAgrees_directory :
    ProbeAgrees { nodes := [] } [.directory ⟨"d"⟩, .directory ⟨"e"⟩] ⟨"T"⟩ := by
  refine (probed_as_read_unless_sealed _ _ _).1.mpr ?_
  rintro ⟨before, root, after, split, -, closed⟩
  have member : root ∈ [directory ⟨"d"⟩, directory ⟨"e"⟩] := by simp [split]
  rcases List.mem_pair.mp member with rfl | rfl
  · exact closed
  · exact closed

/-- An archive with two entries, `a/T.java` with the text `package a;class T extends S{}` and
`a/S.java`, which is encrypted. -/
def locked : ByteArray :=
  ⟨#[0x50, 0x4B, 0x03, 0x04, 0x14, 0x00, 0x00, 0x00, 0x00, 0x00, 0x00, 0x00, 0x21, 0x00, 0x5D,
    0x4C, 0x9B, 0x40, 0x1D, 0x00, 0x00, 0x00, 0x1D, 0x00, 0x00, 0x00, 0x08, 0x00, 0x00, 0x00,
    0x61, 0x2F, 0x54, 0x2E, 0x6A, 0x61, 0x76, 0x61, 0x70, 0x61, 0x63, 0x6B, 0x61, 0x67, 0x65,
    0x20, 0x61, 0x3B, 0x63, 0x6C, 0x61, 0x73, 0x73, 0x20, 0x54, 0x20, 0x65, 0x78, 0x74, 0x65,
    0x6E, 0x64, 0x73, 0x20, 0x53, 0x7B, 0x7D, 0x50, 0x4B, 0x03, 0x04, 0x14, 0x00, 0x01, 0x00,
    0x00, 0x00, 0x00, 0x00, 0x21, 0x00, 0xE7, 0xBD, 0xD3, 0x21, 0x1F, 0x00, 0x00, 0x00, 0x13,
    0x00, 0x00, 0x00, 0x08, 0x00, 0x00, 0x00, 0x61, 0x2F, 0x53, 0x2E, 0x6A, 0x61, 0x76, 0x61,
    0x0B, 0x23, 0xD8, 0x17, 0x0A, 0xA3, 0x96, 0x91, 0xAD, 0x0B, 0x31, 0x35, 0x0A, 0xA4, 0x48,
    0x9E, 0xF8, 0x27, 0xA8, 0xA2, 0x55, 0x7E, 0x0B, 0xF1, 0x59, 0xAA, 0x54, 0x5B, 0xFB, 0x87,
    0x2C, 0x50, 0x4B, 0x01, 0x02, 0x14, 0x00, 0x14, 0x00, 0x00, 0x00, 0x00, 0x00, 0x00, 0x00,
    0x21, 0x00, 0x5D, 0x4C, 0x9B, 0x40, 0x1D, 0x00, 0x00, 0x00, 0x1D, 0x00, 0x00, 0x00, 0x08,
    0x00, 0x00, 0x00, 0x00, 0x00, 0x00, 0x00, 0x00, 0x00, 0x00, 0x00, 0x00, 0x00, 0x00, 0x00,
    0x00, 0x00, 0x61, 0x2F, 0x54, 0x2E, 0x6A, 0x61, 0x76, 0x61, 0x50, 0x4B, 0x01, 0x02, 0x14,
    0x00, 0x14, 0x00, 0x01, 0x00, 0x00, 0x00, 0x00, 0x00, 0x21, 0x00, 0xE7, 0xBD, 0xD3, 0x21,
    0x1F, 0x00, 0x00, 0x00, 0x13, 0x00, 0x00, 0x00, 0x08, 0x00, 0x00, 0x00, 0x00, 0x00, 0x00,
    0x00, 0x00, 0x00, 0x00, 0x00, 0x00, 0x00, 0x43, 0x00, 0x00, 0x00, 0x61, 0x2F, 0x53, 0x2E,
    0x6A, 0x61, 0x76, 0x61, 0x50, 0x4B, 0x05, 0x06, 0x00, 0x00, 0x00, 0x00, 0x02, 0x00, 0x02,
    0x00, 0x6C, 0x00, 0x00, 0x00, 0x88, 0x00, 0x00, 0x00, 0x00, 0x00]⟩

/-- What is read of the archive: its class has a superclass in another package than its own. -/
theorem exists_open_locked : ∃ content, Archive.ofBytes locked = .ok content ∧
    (Root.archive ⟨"x.jar"⟩ content).Sealed ⟨"a/S"⟩ ∧
    ∀ disk, (Classpath.factIn? disk [.archive ⟨"x.jar"⟩ content] ⟨"a/T"⟩).toOption.join =
      some { subject := ⟨"a/T"⟩, superclass := some ⟨"java/lang/S"⟩ } := by
  have shown : ((Archive.ofBytes locked).toOption.bind fun content =>
      (content.entry? "a/S.java").bind fun entry =>
        if content.hasEntry "a/S.java" then none
        else View.factOf [view (fun _ _ => none) (.archive ⟨"x.jar"⟩ content)] ⟨"a/T"⟩) =
      some { subject := ⟨"a/T"⟩, superclass := some ⟨"java/lang/S"⟩ } := by
    decide +kernel
  obtain ⟨content, opened, shown⟩ := Option.bind_eq_some_iff.mp shown
  obtain ⟨entry, listed, shown⟩ := Option.bind_eq_some_iff.mp shown
  have listed : content.entry? (TypeName.mk "a/S").sourcePath = some entry := listed
  split at shown
  case isTrue => cases shown
  case isFalse lacking =>
    refine ⟨content, Classpath.ok_of_toOption opened, ?_, ?_⟩
    · cases refused : content.openEntry entry with
      | error defect => exact ⟨entry, defect, listed, refused⟩
      | ok unlocked =>
        refine absurd ?_ lacking
        show content.hasEntry (TypeName.mk "a/S").sourcePath = true
        rw [Archive.hasEntry, listed]
        simp [refused, Except.isOk, Except.toBool]
    · intro disk
      rw [Classpath.toOption_factIn?]
      exact shown

/-- **A probe passes over a locked entry.** The encrypted entry is not probed for and yet is read:
the superclass is resolved to another package than its own, although a reader does not find nothing
there for the type. -/
theorem probe_passes_over_locked : ∃ content, Archive.ofBytes locked = .ok content ∧ ∀ disk,
    ¬ ProbeAgrees disk [.archive ⟨"x.jar"⟩ content] ⟨"a/S"⟩ ∧
    anyHas disk [.archive ⟨"x.jar"⟩ content] ⟨"a/S"⟩ = false ∧
    firstText? disk [.archive ⟨"x.jar"⟩ content] ⟨"a/S"⟩ ≠ none ∧
    (Classpath.factIn? disk [.archive ⟨"x.jar"⟩ content] ⟨"a/T"⟩).toOption.join =
      some { subject := ⟨"a/T"⟩, superclass := some ⟨"java/lang/S"⟩ } := by
  obtain ⟨content, opened, closed, fact⟩ := exists_open_locked
  refine ⟨content, opened, fun disk => ?_⟩
  have front : SealedInFront disk [.archive ⟨"x.jar"⟩ content] ⟨"a/S"⟩ :=
    ⟨[], _, [], rfl, by simp, closed⟩
  refine ⟨fun agrees => agrees.not_sealedInFront front, ?_, ?_, fact disk⟩
  · rw [anyHas, List.any_cons, closed.has_eq, List.any_nil, Bool.or_false]
  · obtain ⟨path, defect, found⟩ := front.exists_firstText?
    rw [found]
    exact Option.some_ne_none _

end Root

end TypeLineage
