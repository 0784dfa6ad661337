import TypeLineage.Proofs.Classpath.FirstRoot
import TypeLineage.Proofs.Classpath.Still

/-!
# Roots that make no difference

A root that leads to no directory and to no archive is passed over when the roots are opened. A copy
of a root that comes after the root itself is asked only for what that one does not have, and so does
not have it either. So a list of roots may be padded with both, and no answer of a reader changes
(`padding_changes_no_answer`).
-/

namespace TypeLineage

namespace View

/-- Two lists of views show the same: the same text, or the same lack of one, for every type, and the
same types as being there. -/
structure ShowSame (views others : List View) : Prop where
  /-- What is found first for a type. -/
  text : ∀ name, (views.findSome? fun view => view.text? name) =
    others.findSome? fun view => view.text? name
  /-- Which types there are. -/
  has : ∀ name, (views.any fun view => view.has name) = others.any fun view => view.has name

namespace ShowSame

variable {views others more : List View}

theorem refl (views : List View) : ShowSame views views :=
  ⟨fun _ => rfl, fun _ => rfl⟩

theorem symm (same : ShowSame views others) : ShowSame others views :=
  ⟨fun name => (same.text name).symm, fun name => (same.has name).symm⟩

theorem trans (first : ShowSame views others) (second : ShowSame others more) :
    ShowSame views more :=
  ⟨fun name => (first.text name).trans (second.text name),
    fun name => (first.has name).trans (second.has name)⟩

/-- A view that is there already shows nothing new further behind. -/
theorem insert_copy {before : List View} {view : View} (copied : view ∈ before) (after : List View) :
    ShowSame (before ++ after) (before ++ view :: after) where
  text name := by
    rw [List.findSome?_append, List.findSome?_append, List.findSome?_cons]
    cases shown : before.findSome? fun view => view.text? name with
    | some text => rfl
    | none =>
      have silent : view.text? name = none := List.findSome?_eq_none_iff.mp shown view copied
      rw [silent, Option.none_or]
  has name := by
    rw [List.any_append, List.any_append, List.any_cons]
    cases there : view.has name with
    | false => rw [Bool.false_or]
    | true =>
      have already : (before.any fun view => view.has name) = true :=
        List.any_eq_true.mpr ⟨view, copied, there⟩
      rw [already, Bool.true_or, Bool.true_or]

/-- Lists that show the same tell the same facts. -/
theorem factOf_eq (same : ShowSame views others) (name : TypeName) :
    factOf views name = factOf others name :=
  Classpath.factOf_congr_shown (same.text name) same.has

end ShowSame

end View

namespace Root

variable {disk : Files.Disk} {path : Files.Path}

/-- A path is of no use as a root if it leads to no directory, and to no file that is an archive. -/
structure Useless (disk : Files.Disk) (path : Files.Path) : Prop where
  /-- It leads to no directory. -/
  noDirectory : disk.isDirectory path = false
  /-- It leads to no archive. -/
  noArchive : ∀ bytes content, disk.read path = .ok bytes → Archive.ofBytes bytes ≠ .ok content

/-- What is of no use shows nothing. -/
theorem Useless.viewAt_eq (useless : Useless disk path) : viewAt disk path = none := by
  rw [viewAt, openAt, useless.noDirectory, if_neg (by simp)]
  split
  · rfl
  · cases found : disk.read path with
    | error fault => rfl
    | ok bytes =>
      cases opened : Archive.ofBytes bytes with
      | error defect => simp [opened]
      | ok content => exact absurd opened (useless.noArchive bytes content found)

/-- A path that leads nowhere is of no use. -/
theorem Useless.of_resolve {fault : Files.Fault} (nowhere : disk.resolve path = .error fault) :
    Useless disk path where
  noDirectory := by rw [Files.Disk.isDirectory, Files.Disk.at?, nowhere]
  noArchive bytes content found := by
    rw [Files.Disk.read, nowhere] at found
    cases found

/-- One list of roots is another with one root more, which makes no difference. -/
inductive Pads (disk : Files.Disk) : List Files.Path → List Files.Path → Prop
  /-- A root that is of no use. -/
  | useless {before after : List Files.Path} {path : Files.Path} : Useless disk path →
    Pads disk (before ++ after) (before ++ path :: after)
  /-- A copy of a root that comes earlier. -/
  | copy {before after : List Files.Path} {path : Files.Path} : path ∈ before →
    Pads disk (before ++ after) (before ++ path :: after)

end Root

namespace Classpath

variable {disk : Files.Disk} {roots others : List Files.Path}

theorem seen_append (disk : Files.Disk) (before after : List Files.Path) :
    seen disk ⟨before ++ after⟩ = seen disk ⟨before⟩ ++ seen disk ⟨after⟩ :=
  List.filterMap_append

theorem showSame_of_pads (pads : Root.Pads disk roots others) :
    View.ShowSame (seen disk ⟨roots⟩) (seen disk ⟨others⟩) := by
  cases pads with
  | @useless before after path useless =>
    have passed : seen disk ⟨path :: after⟩ = seen disk ⟨after⟩ :=
      List.filterMap_cons_none useless.viewAt_eq
    rw [seen_append, seen_append, passed]
    exact .refl _
  | @copy before after path copied =>
    rw [seen_append, seen_append]
    cases shown : Root.viewAt disk path with
    | none =>
      have passed : seen disk ⟨path :: after⟩ = seen disk ⟨after⟩ := List.filterMap_cons_none shown
      rw [passed]
      exact .refl _
    | some view =>
      have opened : seen disk ⟨path :: after⟩ = view :: seen disk ⟨after⟩ :=
        List.filterMap_cons_some shown
      rw [opened]
      exact .insert_copy (List.mem_filterMap.mpr ⟨path, copied, shown⟩) _

/-- However many such roots are put in and left out, the lists show the same. -/
theorem showSame_of_eqvGen (padded : Relation.EqvGen (Root.Pads disk) roots others) :
    View.ShowSame (seen disk ⟨roots⟩) (seen disk ⟨others⟩) := by
  induction padded with
  | rel _ _ pads => exact showSame_of_pads pads
  | refl => exact .refl _
  | symm _ _ _ ih => exact ih.symm
  | trans _ _ _ _ _ first second => exact first.trans second

theorem anyHas_openAll (disk : Files.Disk) (roots : List Files.Path) :
    Root.anyHas disk (Root.openAll disk roots).1 =
      fun other => (seen disk ⟨roots⟩).any fun view => view.has other := by
  rw [← Root.any_has_view, Root.map_view_openAll, seen]

/-- **Padding changes no answer.** Roots that are of no use, and copies of roots behind the roots
themselves, may be put in anywhere and left out again: a reader gives the same answer for every
type, whatever it has been asked before, and every written name of every unit is resolved to the
same type. -/
theorem padding_changes_no_answer
    (padded : Relation.EqvGen (Root.Pads disk) roots others) :
    (∀ acts : List Act, (∀ act ∈ acts, act.changes = false) → ∀ name,
      answerAfter (fresh ⟨roots⟩ disk) acts name = answerAfter (fresh ⟨others⟩ disk) acts name) ∧
    ∀ unit written,
      Resolution.resolve unit (Root.anyHas disk (Root.openAll disk roots).1) written =
        Resolution.resolve unit (Root.anyHas disk (Root.openAll disk others).1) written := by
  have same := showSame_of_eqvGen padded
  constructor
  · intro acts unchanged name
    rw [answerAfter_of_unchanged _ _ unchanged, answerAfter_of_unchanged _ _ unchanged]
    exact same.factOf_eq name
  · intro unit written
    rw [anyHas_openAll, anyHas_openAll, funext same.has]

/-- Nothing is there under another name than that of the directory. -/
theorem useless_shelf (source : ByteArray) : Root.Useless (shelf source) ⟨"x.jar"⟩ := by
  have segments : (Files.Path.mk "x.jar").segments = ["x.jar"] := by decide
  refine @Root.Useless.of_resolve _ _ .missing ?_
  rw [Files.Disk.resolve, segments, if_neg (by decide)]
  show (shelf source).follow 40 [] ["x.jar"] = _
  rw [(shelf source).follow_name 40 [] (by decide) (by decide),
    (shelf source).enter_of_directory rfl]
  rfl

/-- The superclass is found behind a root that is not there and before a copy of its own root. -/
theorem superclass_among_useless_roots :
    answerAfter (fresh ⟨[⟨"x.jar"⟩, ⟨"d"⟩, ⟨"d"⟩]⟩ (shelf "class T extends a.S {}".toUTF8)) []
        ⟨"T"⟩ = some { subject := ⟨"T"⟩, superclass := some ⟨"a/S"⟩ } := by
  have padded : Relation.EqvGen (Root.Pads (shelf "class T extends a.S {}".toUTF8))
      [⟨"d"⟩] [⟨"x.jar"⟩, ⟨"d"⟩, ⟨"d"⟩] := by
    have copied : Root.Pads (shelf "class T extends a.S {}".toUTF8) [⟨"d"⟩] [⟨"d"⟩, ⟨"d"⟩] :=
      @Root.Pads.copy _ [⟨"d"⟩] [] ⟨"d"⟩ (by simp)
    have absent : Root.Pads (shelf "class T extends a.S {}".toUTF8) [⟨"d"⟩, ⟨"d"⟩]
        [⟨"x.jar"⟩, ⟨"d"⟩, ⟨"d"⟩] :=
      @Root.Pads.useless _ [] [⟨"d"⟩, ⟨"d"⟩] ⟨"x.jar"⟩ (useless_shelf _)
    exact .trans _ _ _ (.rel _ _ copied) (.rel _ _ absent)
  rw [← (padding_changes_no_answer padded).1 [] (by simp), answerAfter_shelf]

end Classpath

end TypeLineage
