import TypeLineage.Engine.State

/-!
# Entries by key

The engine keeps what it remembers in a list of entries, each with its key. Replacing the entry of a
key works on its first occurrence or adds one, and so does removing; no key comes to occur twice.
Both go together with counting entries, and with whatever is done to all of them alike.
-/

namespace TypeLineage.Engine

variable {κ α : Type} [DecidableEq κ]

theorem lookup_replaceEntry (key other : κ) (value : α) (entries : List (κ × α)) :
    (replaceEntry key value entries).lookup other =
      if other = key then some value else entries.lookup other := by
  induction entries with
  | nil =>
    by_cases same : other = key
    · simp [replaceEntry, same]
    · simp [replaceEntry, same, List.lookup_cons, beq_eq_false_iff_ne.mpr same]
  | cons entry rest ih =>
    obtain ⟨first, held⟩ := entry
    by_cases here : first = key
    · subst here
      by_cases same : other = first
      · simp [replaceEntry, same]
      · simp [replaceEntry, same, List.lookup_cons, beq_eq_false_iff_ne.mpr same]
    · by_cases same : other = first
      · simp [replaceEntry, here, same]
      · simp [replaceEntry, here, List.lookup_cons, beq_eq_false_iff_ne.mpr same, ih]

theorem lookup_removeEntry_of_ne {key other : κ} (differs : other ≠ key)
    (entries : List (κ × α)) : (removeEntry key entries).lookup other = entries.lookup other := by
  induction entries with
  | nil => rfl
  | cons entry rest ih =>
    obtain ⟨first, held⟩ := entry
    by_cases here : first = key
    · subst here
      simp [removeEntry, List.lookup_cons, beq_eq_false_iff_ne.mpr differs]
    · by_cases same : other = first
      · simp [removeEntry, here, same]
      · simp [removeEntry, here, List.lookup_cons, beq_eq_false_iff_ne.mpr same, ih]

theorem mem_replaceEntry {key : κ} {value : α} {entries : List (κ × α)} {entry : κ × α}
    (member : entry ∈ replaceEntry key value entries) : entry = (key, value) ∨ entry ∈ entries := by
  induction entries with
  | nil => exact .inl (by simpa [replaceEntry] using member)
  | cons first rest ih =>
    by_cases here : first.1 = key
    · simp only [replaceEntry, here, if_true] at member
      exact (List.mem_cons.mp member).imp_right (.tail _)
    · simp only [replaceEntry, here, if_false] at member
      rcases List.mem_cons.mp member with rfl | member
      · exact .inr (.head _)
      · exact (ih member).imp_right (.tail _)

theorem nodup_replaceEntry {entries : List (κ × α)} (nodup : (entries.map Prod.fst).Nodup) (key : κ)
    (value : α) : ((replaceEntry key value entries).map Prod.fst).Nodup := by
  induction entries with
  | nil => simp [replaceEntry]
  | cons first rest ih =>
    obtain ⟨fresh, nodup⟩ := List.nodup_cons.mp nodup
    by_cases here : first.1 = key
    · simp only [replaceEntry, here, if_true, List.map_cons]
      exact List.nodup_cons.mpr ⟨here ▸ fresh, nodup⟩
    · simp only [replaceEntry, here, if_false, List.map_cons]
      refine List.nodup_cons.mpr ⟨fun again => ?_, ih nodup⟩
      obtain ⟨entry, member, same⟩ := List.mem_map.mp again
      rcases mem_replaceEntry member with rfl | member
      · exact here same.symm
      · exact fresh (List.mem_map.mpr ⟨entry, member, same⟩)

theorem removeEntry_sublist (key : κ) (entries : List (κ × α)) :
    (removeEntry key entries).Sublist entries := by
  induction entries with
  | nil => exact .slnil
  | cons first rest ih =>
    simp only [removeEntry]
    split
    · exact .cons _ (.refl rest)
    · exact ih.cons_cons _

theorem lookup_removeEntry {entries : List (κ × α)} (nodup : (entries.map Prod.fst).Nodup)
    (key : κ) : (removeEntry key entries).lookup key = none := by
  induction entries with
  | nil => rfl
  | cons first rest ih =>
    obtain ⟨fresh, nodup⟩ := List.nodup_cons.mp nodup
    by_cases here : first.1 = key
    · simp only [removeEntry, here, if_true, List.lookup_eq_none_iff]
      intro entry member
      exact bne_iff_ne.mpr fun same => fresh (List.mem_map.mpr ⟨entry, member, by rw [here, same]⟩)
    · have other : (key == first.1) = false := beq_eq_false_iff_ne.mpr (Ne.symm here)
      simp only [removeEntry, here, if_false, List.lookup_cons, other, ih nodup]

/-- An entry is what is found under its key. -/
theorem lookup_of_mem {entries : List (κ × α)} (nodup : (entries.map Prod.fst).Nodup)
    {entry : κ × α} (member : entry ∈ entries) : entries.lookup entry.1 = some entry.2 := by
  induction entries with
  | nil => cases member
  | cons first rest ih =>
    obtain ⟨fresh, nodup⟩ := List.nodup_cons.mp nodup
    rcases List.mem_cons.mp member with rfl | member
    · exact List.lookup_cons_self
    · have other : entry.1 ≠ first.1 := fun same =>
        fresh (List.mem_map.mpr ⟨entry, member, same⟩)
      rw [List.lookup_cons, beq_eq_false_iff_ne.mpr other]
      exact ih nodup member

/-! ### How many entries have a property -/

section Count

variable (p : α → Bool) (key : κ) (entries : List (κ × α))

theorem countP_replaceEntry (value : α) :
    (replaceEntry key value entries).countP (fun entry => p entry.2) +
        ((entries.lookup key).any p).toNat =
      entries.countP (fun entry => p entry.2) + (p value).toNat := by
  induction entries with
  | nil => cases h : p value <;> simp [replaceEntry, h]
  | cons entry rest ih =>
    obtain ⟨first, held⟩ := entry
    by_cases here : first = key
    · subst here
      cases h : p value <;> cases h' : p held <;> simp [replaceEntry, h, h']
    · have lookup : List.lookup key ((first, held) :: rest) = rest.lookup key := by
        simp [List.lookup_cons, beq_eq_false_iff_ne.mpr (Ne.symm here)]
      rw [replaceEntry, if_neg here, List.countP_cons, List.countP_cons, lookup]
      omega

theorem countP_removeEntry :
    (removeEntry key entries).countP (fun entry => p entry.2) + ((entries.lookup key).any p).toNat =
      entries.countP fun entry => p entry.2 := by
  induction entries with
  | nil => rfl
  | cons entry rest ih =>
    obtain ⟨first, held⟩ := entry
    by_cases here : first = key
    · subst here
      cases h : p held <;> simp [removeEntry, h]
    · have lookup : List.lookup key ((first, held) :: rest) = rest.lookup key := by
        simp [List.lookup_cons, beq_eq_false_iff_ne.mpr (Ne.symm here)]
      rw [removeEntry, if_neg here, List.countP_cons, List.countP_cons, lookup]
      omega

end Count

/-! ### Entries that are seen through a function -/

section Map

variable {β : Type} (f : α → β) (key : κ) (entries : List (κ × α))

theorem lookup_map : (entries.map (Prod.map id f)).lookup key = (entries.lookup key).map f := by
  induction entries with
  | nil => rfl
  | cons entry rest ih =>
    obtain ⟨first, held⟩ := entry
    by_cases here : key = first
    · simp [here]
    · simp [List.lookup_cons, beq_eq_false_iff_ne.mpr here, ih]

theorem map_replaceEntry (value : α) :
    (replaceEntry key value entries).map (Prod.map id f) =
      replaceEntry key (f value) (entries.map (Prod.map id f)) := by
  induction entries with
  | nil => rfl
  | cons entry rest ih =>
    obtain ⟨first, held⟩ := entry
    by_cases here : first = key
    · simp [replaceEntry, here]
    · simp [replaceEntry, here, ih]

theorem map_removeEntry :
    (removeEntry key entries).map (Prod.map id f) =
      removeEntry key (entries.map (Prod.map id f)) := by
  induction entries with
  | nil => rfl
  | cons entry rest ih =>
    obtain ⟨first, held⟩ := entry
    by_cases here : first = key
    · simp [removeEntry, here]
    · simp [removeEntry, here, ih]

end Map

/-- The entry that is there can be put there again. -/
theorem replaceEntry_of_lookup {key : κ} {value : α} {entries : List (κ × α)}
    (known : entries.lookup key = some value) : replaceEntry key value entries = entries := by
  induction entries with
  | nil => cases known
  | cons entry rest ih =>
    obtain ⟨first, held⟩ := entry
    by_cases here : first = key
    · subst here
      obtain rfl : held = value := by simpa using known
      simp [replaceEntry]
    · simp only [List.lookup_cons, beq_eq_false_iff_ne.mpr (Ne.symm here)] at known
      simp [replaceEntry, here, ih known]

/-- What is not there need not be removed. -/
theorem removeEntry_of_lookup {key : κ} {entries : List (κ × α)}
    (absent : entries.lookup key = none) : removeEntry key entries = entries := by
  induction entries with
  | nil => rfl
  | cons entry rest ih =>
    obtain ⟨other, absent⟩ := List.forall_mem_cons.mp (List.lookup_eq_none_iff.mp absent)
    have here : ¬ entry.1 = key := fun same => bne_iff_ne.mp other same.symm
    simp [removeEntry, here, ih (List.lookup_eq_none_iff.mpr absent)]

end TypeLineage.Engine
