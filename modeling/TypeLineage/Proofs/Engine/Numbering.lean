import TypeLineage.Proofs.Engine.Answers
import TypeLineage.Proofs.Engine.Image
import TypeLineage.Proofs.Engine.Lifecycle

/-!
# Numbered readers

To tell one reader from another they are numbered as they are made, and a record is kept of what
each of them is called for. The engine does not notice that: it does the same as over the readers
without numbers. It is seen from the records that each reader is asked at least once, is released at
most once, and is not asked afterwards.
-/

namespace TypeLineage.Engine

open State

variable {π κ ρ ω : Type}

/-- What a reader is called for. -/
inductive Use (π : Type) where
  /-- It is made for a project. -/
  | made (project : π)
  /-- It is asked for a type. -/
  | asked (name : TypeName)
  /-- It is released. -/
  | released
  deriving DecidableEq, Repr

/-- Readers that are numbered as they are made. The world has a record of each. -/
def Readers.numbered (readers : Readers π κ ρ ω) :
    Readers π κ (Nat × ρ) (ω × List (List (Use π))) where
  key := readers.key
  create project world :=
    let (reader, under) := readers.create project world.1
    ((world.2.length, reader), (under, world.2 ++ [[.made project]]))
  read reader name world :=
    let (answer, reader', under) := readers.read reader.2 name world.1
    (answer, (reader.1, reader'), (under, world.2.modify reader.1 (· ++ [.asked name])))
  release reader world :=
    let (reader', under) := readers.release reader.2 world.1
    ((reader.1, reader'), (under, world.2.modify reader.1 (· ++ [.released])))

/-- Without their numbers they are the readers that they were. -/
theorem Readers.mapsTo_numbered (readers : Readers π κ ρ ω) :
    readers.numbered.MapsTo readers Prod.snd Prod.fst :=
  ⟨fun _ => rfl, fun _ _ => rfl, fun _ _ _ => rfl, fun _ _ => rfl⟩

/-- The record of a reader that is in use. -/
def working (project : π) (names : List TypeName) : List (Use π) :=
  .made project :: names.map .asked

/-- The record of a reader that has been released. -/
def retired (project : π) (names : List TypeName) : List (Use π) :=
  working project names ++ [.released]

theorem working_concat (project : π) (names : List TypeName) (name : TypeName) :
    working project names ++ [.asked name] = working project (names ++ [name]) := by
  simp [working]

theorem working_ne_retired (project project' : π) (names names' : List TypeName) :
    working project names ≠ retired project' names' := by
  intro same
  have last := congrArg (fun record => Use.released ∈ record) same
  simp [working, retired] at last

theorem project_of_working {project project' : π} {names names' : List TypeName}
    (same : working project names = working project' names') : project = project' :=
  Use.made.inj (List.cons.inj same).1

variable [DecidableEq κ]

/-- There is a record of every reader: those in use have been asked, and all others have been asked
and then released. -/
structure State.Recorded (readers : Readers π κ ρ ω)
    (state : State π κ (Nat × ρ) (ω × List (List (Use π)))) : Prop where
  /-- The readers in use. -/
  live : ∀ project written number reader,
    state.held readers.numbered project = some (written, number, reader) →
    ∃ names, names ≠ [] ∧ state.world.2[number]? = some (working written names)
  /-- All others. -/
  rest : ∀ number record, state.world.2[number]? = some record →
    (∃ project written reader,
      state.held readers.numbered project = some (written, number, reader)) ∨
    ∃ written names, names ≠ [] ∧ record = retired written names

variable {readers : Readers π κ ρ ω}
  {state state' : State π κ (Nat × ρ) (ω × List (List (Use π)))} {project other : π}

/-- No two projects use one reader. -/
theorem State.Recorded.key_eq (h : state.Recorded readers)
    (labelled : state.Labelled readers.numbered) {written written' : π} {number : Nat}
    {reader reader' : ρ}
    (used : state.held readers.numbered project = some (written, number, reader))
    (used' : state.held readers.numbered other = some (written', number, reader')) :
    readers.key other = readers.key project := by
  obtain ⟨names, -, record⟩ := h.live project written number reader used
  obtain ⟨names', -, record'⟩ := h.live other written' number reader' used'
  obtain rfl := project_of_working (Option.some.inj (record.symm.trans record'))
  exact (labelled.label other _ _ used').symm.trans (labelled.label project _ _ used)

/-- A reader of which there is a record is in use for the project at hand, or for another, or has
been released. -/
theorem State.Recorded.cases (h : state.Recorded readers) (project : π) {number : Nat}
    {record : List (Use π)} (known : state.world.2[number]? = some record) :
    (∃ written reader, state.held readers.numbered project = some (written, number, reader)) ∨
      (∃ other written reader, readers.key other ≠ readers.key project ∧
        state.held readers.numbered other = some (written, number, reader)) ∨
      ∃ written names, names ≠ [] ∧ record = retired written names := by
  rcases h.rest number record known with ⟨other, written, reader, used⟩ | gone
  · by_cases same : readers.numbered.key other = readers.numbered.key project
    · exact .inl ⟨written, reader, (held_congr same).symm.trans used⟩
    · exact .inr (.inl ⟨other, written, reader, same, used⟩)
  · exact .inr (.inr gone)

/-- What there is to show of an operation on a project: its reader in use has the right record, the
readers of others have the records that they had, and every record is still accounted for. -/
theorem State.Leaves.recorded {reader? : Option (π × Nat × ρ)} {world : ω × List (List (Use π))}
    {calls : List (Event π)}
    (leaves : Leaves readers.numbered project state state' reader? world calls)
    (recorded : state.Recorded readers)
    (here : ∀ written number reader, reader? = some (written, number, reader) →
      ∃ names, names ≠ [] ∧ world.2[number]? = some (working written names))
    (others : ∀ other written number reader, readers.key other ≠ readers.key project →
      state.held readers.numbered other = some (written, number, reader) →
      world.2[number]? = state.world.2[number]?)
    (rest : ∀ number record, world.2[number]? = some record →
      (∃ written reader, reader? = some (written, number, reader)) ∨
        (∃ other written reader, readers.key other ≠ readers.key project ∧
          state.held readers.numbered other = some (written, number, reader)) ∨
        ∃ written names, names ≠ [] ∧ record = retired written names) :
    state'.Recorded readers where
  live other written number reader used := by
    rw [leaves.held] at used
    rw [leaves.world]
    split at used
    · exact here written number reader used
    case isFalse differs =>
      rw [others other written number reader differs used]
      exact recorded.live other written number reader used
  rest number record known := by
    rw [leaves.world] at known
    rcases rest number record known with
      ⟨written, reader, used⟩ | ⟨other, written, reader, differs, used⟩ | gone
    · exact .inl ⟨project, written, reader, by rw [leaves.held_self, used]⟩
    · exact .inl ⟨other, written, reader, by rw [leaves.held]; exact (if_neg differs).trans used⟩
    · exact .inr gone

section Calls

variable {world : ω × List (List (Use π))} {calls : List (Event π)} {written : π} {number : Nat}
  {reader reader' : ρ} {name : TypeName}

/-- A reader that is in use for another project has another number. -/
theorem State.Recorded.number_ne (h : state.Recorded readers)
    (labelled : state.Labelled readers.numbered)
    (used : state.held readers.numbered project = some (written, number, reader))
    {written' : π} {number' : Nat} (differs : readers.key other ≠ readers.key project)
    (used' : state.held readers.numbered other = some (written', number', reader')) :
    number ≠ number' := by
  rintro rfl
  exact differs (h.key_eq labelled used used')

/-- A reader is made and asked at once. -/
theorem State.Recorded.make (h : state.Recorded readers)
    (unused : state.held readers.numbered project = none)
    (leaves : Leaves readers.numbered project state state'
      (some (project, state.world.2.length, reader)) world calls)
    (records : world.2 = state.world.2 ++ [working project [name]]) : state'.Recorded readers := by
  refine leaves.recorded h ?_ ?_ ?_
  · rintro _ _ _ same
    cases same
    exact ⟨[name], by simp, by simp [records]⟩
  · intro other _ number reader _ used
    obtain ⟨names, -, known⟩ := h.live other _ number reader used
    obtain ⟨earlier, -⟩ := List.getElem?_eq_some_iff.mp known
    rw [records, List.getElem?_append_left earlier]
  · intro number record known
    rw [records] at known
    by_cases earlier : number < state.world.2.length
    · rw [List.getElem?_append_left earlier] at known
      rcases h.cases project known with ⟨_, _, used⟩ | others
      · rw [unused] at used
        cases used
      · exact .inr others
    · have last : number = state.world.2.length := by
        have bound := (List.getElem?_eq_some_iff.mp known).1
        rw [List.length_append, List.length_singleton] at bound
        omega
      exact .inl ⟨project, reader, by rw [last]⟩

/-- The reader in use is asked. -/
theorem State.Recorded.ask (h : state.Recorded readers) (labelled : state.Labelled readers.numbered)
    (used : state.held readers.numbered project = some (written, number, reader))
    (leaves : Leaves readers.numbered project state state' (some (written, number, reader')) world
      calls)
    (records : world.2 = state.world.2.modify number (· ++ [.asked name])) :
    state'.Recorded readers := by
  refine leaves.recorded h ?_ ?_ ?_
  · rintro _ _ _ same
    cases same
    obtain ⟨names, -, known⟩ := h.live project written number reader used
    refine ⟨names ++ [name], by simp, ?_⟩
    rw [records, List.getElem?_modify_eq, known, ← working_concat]
    rfl
  · intro other _ number' _ differs used'
    rw [records, List.getElem?_modify_ne _ _ (h.number_ne labelled used differs used')]
  · intro number' record known
    by_cases same : number = number'
    · exact .inl ⟨written, reader', by rw [same]⟩
    · rw [records, List.getElem?_modify_ne _ _ same] at known
      rcases h.cases project known with ⟨_, _, used'⟩ | others
      · rw [used] at used'
        cases used'
        exact absurd rfl same
      · exact .inr others

/-- The reader in use is released. -/
theorem State.Recorded.release (h : state.Recorded readers)
    (labelled : state.Labelled readers.numbered)
    (used : state.held readers.numbered project = some (written, number, reader))
    (leaves : Leaves readers.numbered project state state' none world calls)
    (records : world.2 = state.world.2.modify number (· ++ [.released])) :
    state'.Recorded readers := by
  refine leaves.recorded h (by simp) ?_ ?_
  · intro other _ number' _ differs used'
    rw [records, List.getElem?_modify_ne _ _ (h.number_ne labelled used differs used')]
  · intro number' record known
    rw [records] at known
    by_cases same : number = number'
    · subst same
      obtain ⟨names, asked, before⟩ := h.live project written number reader used
      rw [List.getElem?_modify_eq, before] at known
      exact .inr (.inr ⟨written, names, asked, (Option.some.inj known).symm⟩)
    · rw [List.getElem?_modify_ne _ _ same] at known
      rcases h.cases project known with ⟨_, _, used'⟩ | others
      · rw [used] at used'
        cases used'
        exact absurd rfl same
      · exact .inr others

end Calls

/-- Every reader has been asked, and may have been released after that. -/
theorem State.Recorded.shape (h : state.Recorded readers) {number : Nat} {record : List (Use π)}
    (known : state.world.2[number]? = some record) :
    ∃ written names, names ≠ [] ∧
      (record = working written names ∨ record = retired written names) := by
  rcases h.rest number record known with
    ⟨project, written, reader, used⟩ | ⟨written, names, asked, gone⟩
  · obtain ⟨names, asked, known'⟩ := h.live project written number reader used
    exact ⟨written, names, asked, .inl (Option.some.inj (known.symm.trans known'))⟩
  · exact ⟨written, names, asked, .inr gone⟩

/-- A reader that has not been released is in use for the project that it was made for, so no two
are of one project. -/
theorem State.Recorded.number_eq (h : state.Recorded readers)
    (labelled : state.Labelled readers.numbered) {number number' : Nat} {written written' : π}
    {names names' : List TypeName} (same : readers.key written = readers.key written')
    (known : state.world.2[number]? = some (working written names))
    (known' : state.world.2[number']? = some (working written' names')) : number = number' := by
  have inUse : ∀ {number written names},
      state.world.2[number]? = some (working written names) → ∃ project reader,
        state.held readers.numbered project = some (written, number, reader) := by
    intro number written names known
    rcases h.rest number _ known with ⟨project, label, reader, used⟩ | ⟨_, _, -, gone⟩
    · obtain ⟨names', -, record⟩ := h.live project label number reader used
      obtain rfl := project_of_working (Option.some.inj (known.symm.trans record))
      exact ⟨project, reader, used⟩
    · exact absurd gone (working_ne_retired _ _ _ _)
  obtain ⟨project, reader, used⟩ := inUse known
  obtain ⟨other, reader', used'⟩ := inUse known'
  have key : readers.numbered.key project = readers.numbered.key other :=
    ((labelled.label project _ _ used).symm.trans same).trans (labelled.label other _ _ used')
  rw [held_congr key, used'] at used
  cases used
  rfl

/-- The records are right, whatever an operation does with readers. -/
theorem upholds_recorded (readers : Readers π κ ρ ω) :
    Upholds readers.numbered (fun _ => True) fun state => state.Labelled readers.numbered ∧
      state.Recorded readers := by
  refine upholds_of_handles fun project state state' labelled handles recorded => ?_
  cases handles with
  | idle leaves =>
    exact leaves.recorded recorded (recorded.live project) (fun _ _ _ _ _ _ => rfl)
      fun number record known => recorded.cases project known
  | make unused created read leaves =>
    cases created
    cases read
    exact recorded.make unused leaves (List.modifyTailIdx_add _ 0 state.world.2 _)
  | ask used read leaves =>
    cases read
    exact recorded.ask labelled used leaves rfl
  | release used released leaves =>
    cases released
    exact recorded.release labelled used leaves rfl

/-- Over numbered readers a run takes the same course. -/
theorem exists_run_numbered {state : State π κ ρ ω} {world : ω} {requests : List (Request π)}
    {answers : List (Option Answer)}
    (ran : (State.start world).run readers requests = some (answers, state)) :
    ∃ numbered, (State.start (world, [])).run readers.numbered requests = some (answers, numbered) ∧
      numbered.trace = state.trace := by
  have couples := ((Readers.mapsTo_numbered readers).couples_image []).symm
  let origin : State π κ (Nat × ρ) (ω × List (List (Use π))) := .start (world, [])
  have start : State.start world = origin.image Prod.snd Prod.fst [] := rfl
  obtain ⟨numbered, ran', rfl⟩ :=
    couples.run (fun _ _ same => same ▸ knownProjects_image ..) start ran
  exact ⟨numbered, ran', rfl⟩

/-- **The readers of a project live one after the other.** After any run, the calls for a project
are those of readers that are made, asked at least once and released before the next one is made;
the last one may not have been released, and that is so exactly if the project has a reader in use.
If readers are numbered, which makes no difference to the run, each of them is seen to be asked at
least once, to be released at most once and not to be asked afterwards, and a project is seen to
have one at most that is not released. Over readers with a ledger it is read off there that none has
been asked after its release, and that those not released are as many as the projects with a reader
in use; when all projects have been forgotten, all readers have been released. -/
theorem readers_live_in_turn {state : State π κ ρ ω} {world : ω} {requests : List (Request π)}
    {answers : List (Option Answer)}
    (ran : (State.start world).run readers requests = some (answers, state)) :
    (∀ project,
      (Lifecycle none (callsFor readers project state.trace) ∨
        ∃ written, Lifecycle (some written) (callsFor readers project state.trace)) ∧
      ((state.stats readers project).any Stats.readerActive = true ↔
        ∃ written, Lifecycle (some written) (callsFor readers project state.trace))) ∧
    (∃ numbered,
      (State.start (world, [])).run readers.numbered requests = some (answers, numbered) ∧
      numbered.trace = state.trace ∧
      (∀ record ∈ numbered.world.2, ∃ written names, names ≠ [] ∧
        (record = working written names ∨ record = retired written names)) ∧
      ∀ (number number' : Nat) written written' names names',
        numbered.world.2[number]? = some (working written names) →
        numbered.world.2[number']? = some (working written' names') →
        readers.key written = readers.key written' → number = number') ∧
    ∀ (table : FactTable) (requests : List (Request String)), ∃ answers state,
      (State.start {}).run table.readers requests = some (answers, state) ∧
      state.world.readsAfterRelease = 0 ∧
      state.world.created = state.world.released +
        state.knownProjects.countP (fun project =>
          (state.stats table.readers project).any Stats.readerActive) ∧
      (state.clearAll table.readers).world.released =
        (state.clearAll table.readers).world.created ∧
      (state.clearAll table.readers).knownProjects = [] := by
  refine ⟨lifecycle_of_run ran, ?_, exists_run_booked⟩
  obtain ⟨numbered, ran', same⟩ := exists_run_numbered ran
  have start : (State.start (world, [])).Recorded readers :=
    ⟨by simp [State.held, context?, State.start], by simp [State.start]⟩
  obtain ⟨labelled, recorded⟩ :=
    (upholds_recorded readers).run ⟨.start _, start⟩ (fun _ _ => trivial) ran'
  refine ⟨numbered, ran', same, fun record member => ?_, fun _ _ _ _ _ _ known known' key =>
    recorded.number_eq labelled key known known'⟩
  obtain ⟨number, known⟩ := List.mem_iff_getElem?.mp member
  exact recorded.shape known

/-- The reader that has been made for a question is released when that is wished afterwards. -/
theorem released_afterSuperclass :
    Lifecycle none (callsFor circles.readers "p" afterSuperclass.trace) ∧
    ∃ answers numbered,
      (State.start ({}, [])).run circles.readers.numbered
        [.ask "p" (.superclass "a.High") true] = some (answers, numbered) ∧
      numbered.trace = afterSuperclass.trace ∧
      ∀ record ∈ numbered.world.2, ∃ written names, names ≠ [] ∧
        (record = working written names ∨ record = retired written names) := by
  have ran : (State.start {}).run circles.readers [.ask "p" (.superclass "a.High") true] =
      some ([some (.name (some ⟨"a/Low"⟩))], afterSuperclass) := rfl
  obtain ⟨turns, ⟨numbered, ran', trace, records, -⟩, -⟩ := readers_live_in_turn ran
  obtain ⟨released | inUse, active⟩ := turns "p"
  · exact ⟨released, _, numbered, ran', trace, records⟩
  · exact absurd (active.mpr inUse) (by decide)

end TypeLineage.Engine
