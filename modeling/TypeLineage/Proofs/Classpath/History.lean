import TypeLineage.Proofs.Classpath.View
import TypeLineage.Proofs.Files.Follow
import Mathlib.Data.List.Induction

/-!
# What a reader remembers

A reader is asked and released, and meanwhile the tree changes. Of all that happened, two trees decide
on what it answers next: the one from which the roots were opened, at the first question since they
were closed, and the present one. The first says which roots are directories, which are archives, and
what the archives hold; the second says what the directories hold. Nothing is left of the names that
were asked for, nor of what came of that.
-/

namespace TypeLineage.Classpath

/-- What happens to a reader or to its world. -/
inductive Act where
  /-- The reader is asked for a type. -/
  | read (name : TypeName)
  /-- The reader is released. -/
  | release
  /-- The tree is changed: files are written or removed, or whatever else. -/
  | change (edit : Files.Disk → Files.Disk)

/-- Whether the tree is changed. -/
def Act.changes : Act → Bool
  | .change _ => true
  | _ => false

/-- A reader and its world after something has happened. -/
def Act.run (state : Reader × World) : Act → Reader × World
  | .read name => (state.1.read name state.2).2
  | .release => state.1.release state.2
  | .change edit => (state.1, { state.2 with disk := edit state.2.disk })

/-- A reader that has just been made, in a world where nothing has been told. -/
def fresh (classpath : Classpath) (disk : Files.Disk) : Reader × World :=
  (.make classpath, { disk })

/-- A reader and its world after all that has happened. -/
def course (state : Reader × World) (acts : List Act) : Reader × World :=
  acts.foldl Act.run state

/-- What a reader answers after all that has happened. -/
def answerAfter (state : Reader × World) (acts : List Act) (name : TypeName) : Option Fact :=
  ((course state acts).1.read name (course state acts).2).1

/-- The two trees that decide on the answers of a reader. -/
structure Trees where
  /-- The tree at the first question since the reader was made or released, if there was one. -/
  opened : Option Files.Disk := none
  /-- The present tree. -/
  now : Files.Disk

namespace Trees

/-- The two trees after something has happened. -/
def step (trees : Trees) : Act → Trees
  | .read _ => { trees with opened := some (trees.opened.getD trees.now) }
  | .release => { trees with opened := none }
  | .change edit => { trees with now := edit trees.now }

/-- The two trees of a new reader after all that has happened. -/
def after (disk : Files.Disk) (acts : List Act) : Trees :=
  acts.foldl step { now := disk }

/-- The roots as they are seen at the next question: those of the tree at the first one. -/
def roots (trees : Trees) (classpath : Classpath) : List Root :=
  (Root.openAll (trees.opened.getD trees.now) classpath.roots).1

theorem after_append (disk : Files.Disk) (acts more : List Act) :
    after disk (acts ++ more) = more.foldl step (after disk acts) :=
  List.foldl_append

/-- As long as the tree is not changed, both trees are the first one. -/
theorem after_of_unchanged {disk : Files.Disk} {acts : List Act}
    (unchanged : ∀ act ∈ acts, act.changes = false) :
    (after disk acts).now = disk ∧ (after disk acts).opened.getD disk = disk := by
  induction acts using List.reverseRecOn with
  | nil => exact ⟨rfl, rfl⟩
  | append_singleton acts act ih =>
    obtain ⟨now, opened⟩ := ih fun other member => unchanged other (List.mem_append_left _ member)
    have quiet : act.changes = false := unchanged act (by simp)
    rw [after_append, List.foldl_cons, List.foldl_nil]
    cases act with
    | read name =>
      refine ⟨now, ?_⟩
      show (after disk acts).opened.getD (after disk acts).now = disk
      rw [now, opened]
    | release => exact ⟨now, rfl⟩
    | change edit => cases quiet

end Trees

/-- The fact about a type, given the opened roots and what lies below directories. -/
def told (roots : List Root) (sources : Files.Path → TypeName → Option ByteArray) (name : TypeName) :
    Option Fact :=
  View.factOf (roots.map (Root.view sources)) name

/-- A reader is in the state to which two trees have led it. -/
structure Follows (classpath : Classpath) (state : Reader × World) (trees : Trees) : Prop where
  /-- It has its paths from the class path. -/
  paths : state.1.paths = classpath.roots
  /-- Its roots are open if it has been asked, as they were then. -/
  opened : state.1.opened = trees.opened.map fun disk => (Root.openAll disk classpath.roots).1
  /-- The present tree is that of its world. -/
  now : state.2.disk = trees.now

namespace Follows

variable {classpath : Classpath} {state : Reader × World} {trees : Trees}

theorem fresh (classpath : Classpath) (disk : Files.Disk) :
    Follows classpath (fresh classpath disk) { now := disk } where
  paths := rfl
  opened := rfl
  now := rfl

theorem roots (h : Follows classpath state trees) :
    (state.1.roots state.2).1 = trees.roots classpath := by
  rw [Reader.roots_fst, h.paths, h.opened, h.now, Trees.roots]
  cases trees.opened <;> rfl

theorem step (h : Follows classpath state trees) (act : Act) :
    Follows classpath (act.run state) (trees.step act) := by
  cases act with
  | read name =>
    refine ⟨?_, ?_, ?_⟩
    · show (state.1.read name state.2).2.1.paths = classpath.roots
      rw [Reader.read_reader]
      exact h.paths
    · show (state.1.read name state.2).2.1.opened = _
      rw [Reader.read_reader, h.roots]
      rfl
    · show (state.1.read name state.2).2.2.disk = trees.now
      rw [Reader.disk_read]
      exact h.now
  | release =>
    refine ⟨?_, ?_, ?_⟩
    · show (state.1.release state.2).1.paths = classpath.roots
      rw [Reader.release_fst]
      exact h.paths
    · show (state.1.release state.2).1.opened = none
      rw [Reader.release_fst]
    · show (state.1.release state.2).2.disk = trees.now
      rw [Reader.disk_release]
      exact h.now
  | change edit => exact ⟨h.paths, h.opened, congrArg edit h.now⟩

theorem course (h : Follows classpath state trees) (acts : List Act) :
    Follows classpath (course state acts) (acts.foldl Trees.step trees) := by
  induction acts generalizing state trees with
  | nil => exact h
  | cons act rest ih => exact ih (h.step act)

theorem read_fst (h : Follows classpath state trees) (name : TypeName) :
    (state.1.read name state.2).1 =
      told (trees.roots classpath) trees.now.sourceIn? name := by
  rw [Reader.read_fst, h.roots, h.now, told]

end Follows

/-- A new reader answers from the two trees to which its history comes down. -/
theorem answerAfter_fresh (classpath : Classpath) (disk : Files.Disk) (acts : List Act)
    (name : TypeName) :
    answerAfter (fresh classpath disk) acts name =
      told ((Trees.after disk acts).roots classpath) (Trees.after disk acts).now.sourceIn? name :=
  ((Follows.fresh classpath disk).course acts).read_fst name

/-- A directory with one source. -/
def shelf (source : ByteArray) : Files.Disk where
  nodes := [(["d"], .directory), (["d", "T.java"], .file source)]

theorem openAll_shelf (source : ByteArray) :
    (Root.openAll (shelf source) [⟨"d"⟩]).1 = [.directory ⟨"d"⟩] := by
  have segments : (Files.Path.mk "d").segments = ["d"] := by decide
  have directory : (shelf source).isDirectory ⟨"d"⟩ = true :=
    (shelf source).isDirectory_of_leadsDown segments (by decide) rfl rfl
  simp [Root.openAll, Root.openAt, directory]

theorem sourceIn?_shelf (source : ByteArray) :
    (shelf source).sourceIn? ⟨"d"⟩ ⟨"T"⟩ = some source := by
  have segments : (Root.unitPath ⟨"d"⟩ ⟨"T"⟩).segments = ["d", "T.java"] := by decide
  rw [Files.Disk.sourceIn?, (shelf source).read_of_leadsDown segments (by decide) rfl rfl]
  rfl

theorem answerAfter_shelf :
    answerAfter (fresh ⟨[⟨"d"⟩]⟩ (shelf "class T extends a.S {}".toUTF8)) [] ⟨"T"⟩ =
      some { subject := ⟨"T"⟩, superclass := some ⟨"a/S"⟩ } := by
  have unit : Java.Unit.ofText? "class T extends a.S {}" =
      some { declarations := [{ kind := .class, name := "T", superclass := some "a.S" }] } := by
    decide +kernel
  rw [answerAfter_fresh]
  show told (Root.openAll (shelf _) [⟨"d"⟩]).1 (Files.Disk.sourceIn? (shelf _)) ⟨"T"⟩ = _
  rw [openAll_shelf, told, View.factOf, View.declaration?]
  simp only [List.map_cons, List.map_nil, Root.view, List.findSome?_cons, sourceIn?_shelf,
    fromUTF8?_toUTF8, Option.map_some, Option.join_some, Option.bind_some, unit]
  decide

end TypeLineage.Classpath
