import TypeLineage.Proofs.Classpath.Still
import TypeLineage.Proofs.Files.SourcePath

/-!
# Spellings of class paths

Two class paths with the same components are one project to the engine, and readers are made for it
as it is written in the query at hand. A directory shows the same in every spelling, since what is
below it is found by its names. An archive does not: with a slash behind its name, its path leads to
nothing. Where the spellings of each root both lead to a file or both do not, it makes no difference
which of the two class paths is used.
-/

namespace TypeLineage.Classpath

open Engine Files

variable {disk : Disk}

/-- The spellings of a root that lead to a file alike show the same. -/
theorem viewAt_congr {path other : Files.Path} (same : path.components = other.components)
    (file : disk.isFile path = disk.isFile other) :
    Root.viewAt disk path = Root.viewAt disk other := by
  have directory : disk.isDirectory path = disk.isDirectory other := Disk.isDirectory_congr same
  have sources : disk.sourceIn? path = disk.sourceIn? other := by
    funext name
    rw [Disk.sourceIn?, Disk.sourceIn?, Disk.read, Disk.read, Root.unitPath, Root.unitPath,
      Disk.resolve_join_congr same name.endsBlank_sourcePath]
  unfold Root.viewAt Root.openAt
  rw [← directory, ← file]
  cases disk.isDirectory path with
  | true => simp [Root.view, sources]
  | false =>
    cases here : disk.isFile path with
    | false => rfl
    | true =>
      rw [here] at file
      rw [← Disk.read_congr same here file.symm]
      cases disk.read path with
      | error fault => rfl
      | ok bytes =>
        cases opened : Archive.ofBytes bytes with
        | error defect => simp [opened]
        | ok content => simp [opened, Root.view]

theorem filterMap_viewAt_congr {paths others : List Files.Path}
    (same : paths.map Files.Path.components = others.map Files.Path.components)
    (files : paths.map disk.isFile = others.map disk.isFile) :
    paths.filterMap (Root.viewAt disk) = others.filterMap (Root.viewAt disk) := by
  induction paths generalizing others with
  | nil =>
    cases others with
    | nil => rfl
    | cons other rest => cases same
  | cons path paths ih =>
    cases others with
    | nil => cases same
    | cons other others =>
      obtain ⟨here, below⟩ := List.cons.inj same
      obtain ⟨file, files⟩ := List.cons.inj files
      rw [List.filterMap_cons, List.filterMap_cons, viewAt_congr here file, ih below files]

/-- What is known of a project after a run in which it is asked about only as it is written in ways
that show the same. -/
theorem settled_of_run {views : List View} {which : List (List Component)}
    {requests : List (Request Classpath)} {answers : List (Option Answer)} {state : EngineState}
    (spelled : ∀ request ∈ requests,
      request.Spelled readers which fun written => seen disk written = views)
    (ran : State.run readers (.start { disk }) requests = some (answers, state)) :
    Settled disk views which state :=
  State.Calm.run (settled_start disk views which) (answerWhile_readers disk views) spelled ran

/-- Whether a request asks about a project only as it is written in one of two ways. -/
abbrev InEither (p q : Classpath) (request : Request Classpath) : Prop :=
  request.Spelled readers p.key fun written => written = p ∨ written = q

/-- **Two class paths that are one project are interchangeable** in a tree where the spellings of
each root lead to a file alike. Readers made for them tell the same facts; and a question about the
project has the same answer in either spelling, after any requests in which the project is asked
about in these spellings. -/
theorem spellings_interchangeable (disk : Disk) (p q : Classpath) (same : p.key = q.key)
    (files : p.roots.map disk.isFile = q.roots.map disk.isFile) :
    (∀ name, answerAfter (fresh p disk) [] name = answerAfter (fresh q disk) [] name) ∧
    ∀ requests requests' answers answers' state state',
      (∀ request ∈ requests, InEither p q request) →
      State.run readers (.start { disk }) requests = some (answers, state) →
      (∀ request ∈ requests', InEither p q request) →
      State.run readers (.start { disk }) requests' = some (answers', state') →
      ∀ question cleanup cleanup', ∃ answer after after',
        state.ask readers p question cleanup = some (answer, after) ∧
        state'.ask readers q question cleanup' = some (answer, after') := by
  have views : seen disk q = seen disk p := (filterMap_viewAt_congr same files).symm
  have either : ∀ request, InEither p q request →
      request.Spelled readers p.key fun written => seen disk written = seen disk p := by
    intro request spelled
    cases request with
    | ask project question cleanup =>
      intro own
      rcases spelled own with rfl | rfl
      · rfl
      · exact views
    | cleanup project | clear project | clearAll => trivial
  refine ⟨?_, ?_⟩
  · intro name
    rw [answerAfter_of_unchanged _ _ (by simp), answerAfter_of_unchanged _ _ (by simp), views]
  · intro requests requests' answers answers' state state' spelled ran spelled' ran' question
      cleanup cleanup'
    have settled : Settled disk (seen disk p) p.key state :=
      settled_of_run (fun request member => either request (spelled request member)) ran
    have settled' : Settled disk (seen disk p) p.key state' :=
      settled_of_run (fun request member => either request (spelled' request member)) ran'
    obtain ⟨answer, after, asked, -, tells⟩ := settled.exists_ask rfl question cleanup
    rw [same] at settled'
    obtain ⟨answer', after', asked', -, tells'⟩ := settled'.exists_ask views question cleanup'
    obtain rfl := tells.unique tells'
    exact ⟨answer, after, after', asked, asked'⟩

/-- A directory shows the same with slashes and a dot behind its name. -/
theorem superclass_in_either_spelling :
    answerAfter (fresh ⟨[⟨"d//."⟩]⟩ (shelf "class T extends a.S {}".toUTF8)) [] ⟨"T"⟩ =
      some { subject := ⟨"T"⟩, superclass := some ⟨"a/S"⟩ } ∧
    ∃ answer after after',
      State.ask readers (.start { disk := shelf "class T extends a.S {}".toUTF8 }) ⟨[⟨"d"⟩]⟩
        (.superclass "T") true = some (answer, after) ∧
      State.ask readers (.start { disk := shelf "class T extends a.S {}".toUTF8 }) ⟨[⟨"d//."⟩]⟩
        (.superclass "T") false = some (answer, after') := by
  have same : (Classpath.mk [⟨"d"⟩]).key = (Classpath.mk [⟨"d//."⟩]).key := by decide
  have files : ∀ source, [Files.Path.mk "d"].map (shelf source).isFile =
      [Files.Path.mk "d//."].map (shelf source).isFile := by
    intro source
    have segments : (Files.Path.mk "d").segments = ["d"] := by decide
    have segments' : (Files.Path.mk "d//.").segments = ["d", "", "."] := by decide
    have plain : (shelf source).isFile ⟨"d"⟩ = false := by
      rw [Disk.isFile, Disk.at?, (shelf source).resolve_of_leadsDown segments (by decide) rfl]
      rfl
    have other : (shelf source).isFile ⟨"d//."⟩ = false := by
      rw [Disk.isFile, Disk.at?, (shelf source).resolve_of_leadsDown segments' (by decide) rfl]
      rfl
    simp [plain, other]
  obtain ⟨told, asked⟩ := spellings_interchangeable (shelf "class T extends a.S {}".toUTF8)
    ⟨[⟨"d"⟩]⟩ ⟨[⟨"d//."⟩]⟩ same (files _)
  refine ⟨(told ⟨"T"⟩).symm.trans answerAfter_shelf, ?_⟩
  exact asked [] [] [] [] _ _ (by simp) rfl (by simp) rfl (.superclass "T") true false

/-- An archive with one source. -/
def jar : ByteArray := ⟨#[
    0x50, 0x4B, 0x03, 0x04, 0x14, 0x00, 0x00, 0x00, 0x00, 0x00, 0x00, 0x00, 0x21, 0x00, 0xF4,
    0x3A, 0x5E, 0x33, 0x09, 0x00, 0x00, 0x00, 0x09, 0x00, 0x00, 0x00, 0x06, 0x00, 0x00, 0x00,
    0x54, 0x2E, 0x6A, 0x61, 0x76, 0x61, 0x63, 0x6C, 0x61, 0x73, 0x73, 0x20, 0x54, 0x7B, 0x7D,
    0x50, 0x4B, 0x01, 0x02, 0x14, 0x00, 0x14, 0x00, 0x00, 0x00, 0x00, 0x00, 0x00, 0x00, 0x21,
    0x00, 0xF4, 0x3A, 0x5E, 0x33, 0x09, 0x00, 0x00, 0x00, 0x09, 0x00, 0x00, 0x00, 0x06, 0x00,
    0x00, 0x00, 0x00, 0x00, 0x00, 0x00, 0x00, 0x00, 0x00, 0x00, 0x80, 0x01, 0x00, 0x00, 0x00,
    0x00, 0x54, 0x2E, 0x6A, 0x61, 0x76, 0x61, 0x50, 0x4B, 0x05, 0x06, 0x00, 0x00, 0x00, 0x00,
    0x01, 0x00, 0x01, 0x00, 0x34, 0x00, 0x00, 0x00, 0x2D, 0x00, 0x00, 0x00, 0x00, 0x00]⟩

/-- A place with nothing but the archive. -/
def shop : Disk where
  nodes := [(["x.jar"], .file jar)]

/-- A slash behind the name of a file asks for a directory. -/
theorem resolve_shop_slash : shop.resolve ⟨"x.jar/"⟩ = .error .notDirectory := by
  have segments : (Files.Path.mk "x.jar/").segments = ["x.jar", ""] := by decide
  rw [Disk.resolve, segments, if_neg (by decide)]
  show shop.follow 40 [] ["x.jar", ""] = _
  rw [Disk.follow_cons_of_node? _ _ (by decide) (by decide) rfl rfl (by simp),
    Disk.follow_blank _ _ _ (by decide)]
  rfl

theorem ok_of_toOption {ε α : Type} {result : Except ε α} {value : α}
    (found : result.toOption = some value) : result = .ok value := by
  cases result with
  | error fault => cases found
  | ok other => exact congrArg Except.ok (Option.some.inj found)

/-- What the archive shows, opened as a root. -/
theorem exists_open_jar : ∃ content, Archive.ofBytes jar = .ok content ∧
    ∀ path sources, (Root.view sources (.archive path content)).text? ⟨"T"⟩ =
      some (some "class T{}") := by
  have shown : ((Archive.ofBytes jar).toOption.bind fun content =>
      (Root.view (fun _ _ => none) (.archive ⟨""⟩ content)).text? ⟨"T"⟩) =
        some (some "class T{}") := by
    decide +kernel
  obtain ⟨content, opened, text⟩ := Option.bind_eq_some_iff.mp shown
  exact ⟨content, ok_of_toOption opened, fun _ _ => text⟩

theorem exists_answerAfter_shop :
    ∃ fact, answerAfter (fresh ⟨[⟨"x.jar"⟩]⟩ shop) [] ⟨"T"⟩ = some fact := by
  have unit : Java.Unit.ofText? "class T{}" =
      some { declarations := [{ kind := .class, name := "T" }] } := by
    decide +kernel
  have declared : Java.Unit.declaration? { declarations := [{ kind := .class, name := "T" }] }
      (TypeName.mk "T").simple = some { kind := .class, name := "T" } := by
    decide
  have bytes : shop.read ⟨"x.jar"⟩ = .ok jar := by
    have segments : (Files.Path.mk "x.jar").segments = ["x.jar"] := by decide
    exact shop.read_of_leadsDown segments (by decide) rfl rfl
  obtain ⟨content, opened, text⟩ := exists_open_jar
  rw [answerAfter_of_unchanged _ _ (by simp), seen,
    List.filterMap_cons_some (Root.viewAt_of_read _ bytes opened), List.filterMap_nil, View.factOf,
    View.declaration?_of_text (by rw [List.findSome?_cons, text]) unit declared]
  exact ⟨_, rfl⟩

theorem answerAfter_shop_slash : answerAfter (fresh ⟨[⟨"x.jar/"⟩]⟩ shop) [] ⟨"T"⟩ = none := by
  have directory : shop.isDirectory ⟨"x.jar/"⟩ = false := by
    rw [Disk.isDirectory, Disk.at?, resolve_shop_slash]
  have file : shop.isFile ⟨"x.jar/"⟩ = false := by
    rw [Disk.isFile, Disk.at?, resolve_shop_slash]
  rw [answerAfter_of_unchanged _ _ (by simp), seen]
  simp [Root.viewAt, Root.openAt, directory, file, View.factOf, View.declaration?]

/-- **The spelling of an archive matters**: it is found in one spelling and not in another that is
the same project. -/
theorem spelling_of_archive_matters :
    ¬ ∀ (disk : Disk) (p q : Classpath), p.key = q.key →
      ∀ name, answerAfter (fresh p disk) [] name = answerAfter (fresh q disk) [] name := by
  intro claim
  have same := claim shop ⟨[⟨"x.jar"⟩]⟩ ⟨[⟨"x.jar/"⟩]⟩ (by decide) ⟨"T"⟩
  obtain ⟨fact, found⟩ := exists_answerAfter_shop
  rw [found, answerAfter_shop_slash] at same
  cases same

end TypeLineage.Classpath
