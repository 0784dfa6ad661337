import TypeLineage.Proofs.Classpath.History
import TypeLineage.Proofs.Engine.Calm
import TypeLineage.Proofs.Files.Below

/-!
# Readers in a tree that stays as it is

As long as the tree does not change, whatever readers of a class path are made, asked and released,
they tell the facts that the roots show. A fact names what the text of some file or archive entry
names; there are finitely many of these, so no walk goes on for ever.
-/

namespace TypeLineage.Classpath

open Engine

/-- What the roots of a class path show while the tree stays as it is. -/
def seen (disk : Files.Disk) (classpath : Classpath) : List View :=
  classpath.roots.filterMap (Root.viewAt disk)

/-- A reader answers what the roots show if nothing has been written since it was made. -/
theorem answerAfter_of_unchanged (classpath : Classpath) (disk : Files.Disk) {acts : List Act}
    (unchanged : ∀ act ∈ acts, act.changes = false) (name : TypeName) :
    answerAfter (fresh classpath disk) acts name = View.factOf (seen disk classpath) name := by
  obtain ⟨now, opened⟩ := Trees.after_of_unchanged unchanged
  rw [answerAfter_fresh, Trees.roots, now, opened, told, Root.map_view_openAll]
  rfl

/-- While the tree stays as it is, readers of class paths that show the same tell what that is. -/
theorem answerWhile_readers (disk : Files.Disk) (views : List View) :
    readers.AnswerWhile (fun world => world.disk = disk)
      (fun classpath => seen disk classpath = views)
      (fun reader => (reader.opened.getD (Root.openAll disk reader.paths).1).map
        (Root.view disk.sourceIn?) = views)
      (View.factOf views) where
  calm_create _ _ still := still
  calm_read reader name world still := (reader.disk_read name world).trans still
  calm_release reader world still := (reader.disk_release world).trans still
  create classpath world same _ := by
    show ((Root.openAll disk classpath.roots).1).map (Root.view disk.sourceIn?) = views
    rw [Root.map_view_openAll]
    exact same
  keeps reader name world still fit := by
    show ((reader.read name world).2.1.opened.getD _).map (Root.view disk.sourceIn?) = views
    rw [Reader.read_reader, Reader.roots_fst, still]
    exact fit
  answers reader name world still fit := by
    show (reader.read name world).1 = View.factOf views name
    rw [Reader.read_fst, Reader.roots_fst, still, fit]

/-- The state of an engine in a tree that stays as it is: what it knows of a project is what some
roots show. -/
abbrev Settled (disk : Files.Disk) (views : List View) (which : List (List Files.Component))
    (state : EngineState) : Prop :=
  state.Calm readers (fun world => world.disk = disk)
    (fun reader => (reader.opened.getD (Root.openAll disk reader.paths).1).map
      (Root.view disk.sourceIn?) = views)
    (View.factOf views) which

theorem settled_start (disk : Files.Disk) (views : List View)
    (which : List (List Files.Component)) : Settled disk views which (.start { disk }) := by
  refine State.Calm.start ?_ which
  rfl

/-! ### Finitely many names -/

/-- The texts that a root can show. -/
def texts (disk : Files.Disk) : Root → List String
  | .directory _ => disk.nodes.filterMap fun entry =>
    match entry.2 with
    | .file content => String.fromUTF8? content
    | _ => none
  | .archive _ content => content.entries.filterMap fun entry =>
    (content.openEntry entry).toOption.bind fun opened => opened.text.toOption

theorem mem_nodes_of_read {disk : Files.Disk} {path : Files.Path} {content : ByteArray}
    (found : (disk.read path).toOption = some content) :
    ∃ place, (place, Files.Node.file content) ∈ disk.nodes := by
  unfold Files.Disk.read at found
  cases resolved : disk.resolve path with
  | error fault => simp [resolved, bind, Except.bind, Except.toOption] at found
  | ok place =>
    rw [resolved] at found
    simp only [bind, Except.bind] at found
    cases here : disk.node? place with
    | none => simp [here, Except.toOption] at found
    | some node =>
      cases node with
      | directory | link target => simp [here, Except.toOption] at found
      | file content' =>
        simp only [here, Except.toOption, Option.some.injEq] at found
        subst found
        refine ⟨place, Files.Disk.mem_nodes_of_node? ?_ here⟩
        rintro rfl
        cases here

theorem mem_texts_of_text? {disk : Files.Disk} {root : Root} {name : TypeName} {text : String}
    (shown : (root.view disk.sourceIn?).text? name = some (some text)) : text ∈ texts disk root := by
  cases root with
  | directory path =>
    obtain ⟨content, found, decoded⟩ := Option.map_eq_some_iff.mp shown
    obtain ⟨place, member⟩ := mem_nodes_of_read found
    exact List.mem_filterMap.mpr ⟨_, member, decoded⟩
  | archive path content =>
    obtain ⟨entry, found, decoded⟩ := Option.map_eq_some_iff.mp shown
    rw [Archive.entry?, List.findRev?_eq_find?_reverse] at found
    have member := List.mem_reverse.mp (List.mem_of_find?_eq_some found)
    exact List.mem_filterMap.mpr ⟨entry, member, decoded⟩

/-- The facts about the types that a text declares, but for their names. -/
def declared (exists? : TypeName → Bool) (text : String) : List (TypeName × Fact) :=
  match Java.Unit.ofText? text with
  | none => []
  | some unit => unit.declarations.map fun declaration =>
    (⟨""⟩, Resolution.fact unit exists? ⟨""⟩ declaration)

theorem within_named_of_mem {entries : List (TypeName × Fact)} {entry : TypeName × Fact}
    (member : entry ∈ entries) : Within (named entries) entry.2 := by
  constructor
  · intro upper edge
    simp only [named, List.mem_toFinset, List.mem_flatMap]
    exact ⟨entry, member, by simp [edge]⟩
  · intro name mentioned
    simp only [named, List.mem_toFinset, List.mem_flatMap]
    exact ⟨entry, member, by simp [mentioned]⟩

/-- The name of a declared type matters to its superclass only if it has none. -/
theorem superclass_of_some {unit : Java.Unit} {exists? : TypeName → Bool} {name upper : TypeName}
    {declaration : Java.Declaration}
    (edge : Resolution.superclass unit exists? name declaration = some upper) :
    Resolution.superclass unit exists? ⟨""⟩ declaration = some upper := by
  unfold Resolution.superclass at edge ⊢
  split at edge
  · split at edge
    · exact edge
    · split at edge
      · cases edge
      · exact edge
  all_goals exact edge

/-- The facts that roots show lead to finitely many names. -/
theorem finitelyNamed_seen (disk : Files.Disk) (classpath : Classpath) :
    FinitelyNamed (View.factOf (seen disk classpath)) := by
  intro start
  let exists? (other : TypeName) : Bool := (seen disk classpath).any fun view => view.has other
  let roots := (Root.openAll disk classpath.roots).1
  let entries := (roots.flatMap (texts disk)).flatMap (declared exists?)
  refine ⟨insert start (named entries), Finset.mem_insert_self _ _, ?_⟩
  intro name fact known
  obtain ⟨⟨unit, declaration⟩, found, rfl⟩ := Option.map_eq_some_iff.mp known
  obtain ⟨view, member, text, shown, parsed, listed⟩ := View.exists_text_of_declaration? found
  have member' : view ∈ roots.map (Root.view disk.sourceIn?) := by
    rw [Root.map_view_openAll]
    exact member
  obtain ⟨root, opened, rfl⟩ := List.mem_map.mp member'
  have entry : (⟨""⟩, Resolution.fact unit exists? ⟨""⟩ declaration) ∈ entries := by
    refine List.mem_flatMap.mpr ⟨text, ?_, ?_⟩
    · exact List.mem_flatMap.mpr ⟨root, opened, mem_texts_of_text? shown⟩
    · rw [declared, parsed]
      exact List.mem_map.mpr ⟨declaration, listed, rfl⟩
  have within := (within_named_of_mem entry).mono (Finset.subset_insert start _)
  exact ⟨fun upper edge => within.superclass upper (superclass_of_some edge), within.interfaces⟩

/-- A question about a project is answered by what its roots show, however they are written. -/
theorem Settled.exists_ask {disk : Files.Disk} {views : List View} {classpath : Classpath}
    {state : EngineState} (settled : Settled disk views classpath.key state)
    (same : seen disk classpath = views) (question : Question) (cleanup : Bool) :
    ∃ answer after, state.ask readers classpath question cleanup = some (answer, after) ∧
      Settled disk views classpath.key after ∧ Tells (View.factOf views) question answer := by
  have finite : FinitelyNamed (View.factOf views) := same ▸ finitelyNamed_seen disk classpath
  exact State.Calm.exists_ask settled (answerWhile_readers disk views) finite same question cleanup

end TypeLineage.Classpath
