import TypeLineage.Proofs.Classpath.Probes
import TypeLineage.Proofs.Classpath.Spellings
import TypeLineage.Proofs.Files.Below

/-!
# Directories and archives of the same files

A directory that holds certain files and an archive of the same files show the same for every type
whose source path has no empty text: both find the file of that path, or both find none. So a reader
tells the same facts with either of them among its roots, as far as it looks for no other types.

It looks for the type that it is asked for, and for those that a written supertype may mean. The
latter can have empty texts in their source paths, since a package keeps the comments that are
written between its parts. A directory finds the file nevertheless, and an archive does not.
-/

namespace TypeLineage.Classpath

open Files

variable {disk : Disk} {directory archive : Files.Path} {files : List (String × ByteArray)}
  {place : Place} {content : Archive}

/-- An archive of certain files: there is an entry of each name that can be opened and has the bytes
of the file, and there is no other entry. -/
structure Packs (disk : Disk) (archive : Files.Path) (files : List (String × ByteArray))
    (content : Archive) : Prop where
  /-- The archive can be opened. -/
  opens : ∃ bytes, disk.read archive = .ok bytes ∧ Archive.ofBytes bytes = .ok content
  /-- It has the files. -/
  has : ∀ name bytes, files.lookup name = some bytes → ∃ entry opened,
    content.entry? name = some entry ∧ content.openEntry entry = .ok opened ∧
      opened.content = .ok bytes
  /-- It has nothing else. -/
  only : ∀ name, files.lookup name = none → content.entry? name = none

theorem viewAt_of_packs (packs : Packs disk archive files content) :
    Root.viewAt disk archive = some (Root.view disk.sourceIn? (.archive archive content)) := by
  obtain ⟨bytes, found, opened⟩ := packs.opens
  exact Root.viewAt_of_read disk found opened

theorem viewAt_of_holds (holds : disk.Holds directory files place) :
    Root.viewAt disk directory = some (Root.view disk.sourceIn? (.directory directory)) := by
  refine Root.viewAt_of_isDirectory disk ?_
  rw [Disk.isDirectory, Disk.at?, holds.leads]
  simp [holds.here]

/-- A directory shows the file of a clean source path. -/
theorem sourceIn?_of_holds (holds : disk.Holds directory files place) {raw : String}
    (clean : (TypeName.ofString raw).Clean) :
    disk.sourceIn? directory (.ofString raw) =
      files.lookup (TypeName.ofString raw).sourcePath :=
  holds.toOption_read_join clean.relative clean.names

theorem text_of_content {opened : Archive.Opened} {bytes : ByteArray}
    (found : opened.content = .ok bytes) : opened.text.toOption = String.fromUTF8? bytes := by
  rw [opened.toOption_text, found]
  rfl

/-- What has a clean source path is shown by both or by neither. -/
theorem has_of_packs (holds : disk.Holds directory files place)
    (packs : Packs disk archive files content) {raw : String}
    (clean : (TypeName.ofString raw).Clean) :
    (Root.view disk.sourceIn? (.directory directory)).has (.ofString raw) =
      (Root.view disk.sourceIn? (.archive archive content)).has (.ofString raw) := by
  simp only [Root.view]
  rw [sourceIn?_of_holds holds clean, Archive.hasEntry]
  cases found : files.lookup (TypeName.ofString raw).sourcePath with
  | none => rw [packs.only _ found]; rfl
  | some bytes =>
    obtain ⟨entry, opened, listed, opens, -⟩ := packs.has _ _ found
    rw [listed]
    simp [opens, Except.isOk, Except.toBool]

/-- And its text is the same in both. -/
theorem text?_of_packs (holds : disk.Holds directory files place)
    (packs : Packs disk archive files content) {raw : String}
    (clean : (TypeName.ofString raw).Clean) :
    (Root.view disk.sourceIn? (.directory directory)).text? (.ofString raw) =
      (Root.view disk.sourceIn? (.archive archive content)).text? (.ofString raw) := by
  simp only [Root.view]
  rw [sourceIn?_of_holds holds clean]
  cases found : files.lookup (TypeName.ofString raw).sourcePath with
  | none => rw [packs.only _ found]; rfl
  | some bytes =>
    obtain ⟨entry, opened, listed, opens, given⟩ := packs.has _ _ found
    rw [listed, Option.map_some, Option.map_some, opens]
    exact congrArg some (text_of_content given).symm

/-- One view may stand for another if both show the same text for the type. -/
theorem declaration?_congr {view other : View} {name : TypeName}
    (text : view.text? name = other.text? name) (before after : List View) :
    View.declaration? (before ++ view :: after) name =
      View.declaration? (before ++ other :: after) name := by
  unfold View.declaration?
  rw [List.findSome?_append, List.findSome?_append, List.findSome?_cons, List.findSome?_cons, text]

/-- It tells the same fact if both also agree on which types there are of those that are tried for
the supertypes. -/
theorem factOf_congr {before after : List View} {view other : View} {name : TypeName}
    (text : view.text? name = other.text? name)
    (has : ∀ unit declaration,
      View.declaration? (before ++ view :: after) name = some (unit, declaration) →
      ∀ tried ∈ Resolution.probes unit declaration, view.has tried = other.has tried) :
    View.factOf (before ++ view :: after) name = View.factOf (before ++ other :: after) name := by
  unfold View.factOf
  rw [← declaration?_congr text]
  cases found : View.declaration? (before ++ view :: after) name with
  | none => rfl
  | some pair =>
    refine congrArg some (Resolution.fact_congr fun tried member => ?_)
    rw [List.any_append, List.any_append, List.any_cons, List.any_cons,
      has pair.1 pair.2 found tried member]

theorem seen_append_cons {path : Files.Path} {view : View}
    (shown : Root.viewAt disk path = some view) (before after : List Files.Path) :
    seen disk ⟨before ++ path :: after⟩ =
      seen disk ⟨before⟩ ++ view :: seen disk ⟨after⟩ := by
  rw [seen, List.filterMap_append, List.filterMap_cons_some shown]
  rfl

/-- **Packing changes no fact.** Readers with a directory of certain files, or with an archive of
the same files, in the same place among their roots tell the same facts, whatever they have been
asked before. The source path of the type must have no empty text, nor must those of the types that
are tried for its supertypes. -/
theorem packing_changes_no_fact (disk : Disk) (before after : List Files.Path)
    (directory archive : Files.Path) (files : List (String × ByteArray)) (place : Place)
    (content : Archive) (holds : disk.Holds directory files place)
    (packs : Packs disk archive files content) (asked : List String) (raw : String)
    (clean : (TypeName.ofString raw).Clean)
    (probed : ∀ unit declaration,
      View.declaration? (seen disk ⟨before ++ directory :: after⟩) (.ofString raw) =
        some (unit, declaration) →
      ∀ other ∈ Resolution.probes unit declaration, other.Clean) :
    answerAfter (fresh ⟨before ++ directory :: after⟩ disk)
        (asked.map fun raw => .read (.ofString raw)) (.ofString raw) =
      answerAfter (fresh ⟨before ++ archive :: after⟩ disk)
        (asked.map fun raw => .read (.ofString raw)) (.ofString raw) := by
  have unchanged : ∀ act ∈ asked.map fun raw => Act.read (.ofString raw), act.changes = false := by
    intro act member
    obtain ⟨raw, -, rfl⟩ := List.mem_map.mp member
    rfl
  rw [answerAfter_of_unchanged _ _ unchanged, answerAfter_of_unchanged _ _ unchanged]
  rw [seen_append_cons (viewAt_of_holds holds)] at probed ⊢
  rw [seen_append_cons (viewAt_of_packs packs)]
  refine factOf_congr (text?_of_packs holds packs clean) ?_
  intro unit declaration found other member
  have cleared := probed unit declaration found other member
  obtain ⟨raw', rfl⟩ := Resolution.exists_raw_of_mem_probes member
  exact has_of_packs holds packs cleared

/-- Three sources, one of which has a comment in the name of its package. -/
def sources : List (String × ByteArray) :=
  [("T.java", "import a.*;class T extends S{}".toUTF8),
    ("a/S.java", "package a./**/b;class S extends T{}".toUTF8), ("a/**/b/T.java", "".toUTF8)]

/-- An archive of the three sources. -/
def bundle : ByteArray := ⟨#[
    0x50, 0x4B, 0x03, 0x04, 0x14, 0x00, 0x00, 0x00, 0x00, 0x00, 0x00, 0x00, 0x21, 0x00, 0xA7,
    0x5D, 0xF0, 0x7B, 0x1E, 0x00, 0x00, 0x00, 0x1E, 0x00, 0x00, 0x00, 0x06, 0x00, 0x00, 0x00,
    0x54, 0x2E, 0x6A, 0x61, 0x76, 0x61, 0x69, 0x6D, 0x70, 0x6F, 0x72, 0x74, 0x20, 0x61, 0x2E,
    0x2A, 0x3B, 0x63, 0x6C, 0x61, 0x73, 0x73, 0x20, 0x54, 0x20, 0x65, 0x78, 0x74, 0x65, 0x6E,
    0x64, 0x73, 0x20, 0x53, 0x7B, 0x7D, 0x50, 0x4B, 0x03, 0x04, 0x14, 0x00, 0x00, 0x00, 0x00,
    0x00, 0x00, 0x00, 0x21, 0x00, 0xF8, 0xFE, 0x60, 0x04, 0x23, 0x00, 0x00, 0x00, 0x23, 0x00,
    0x00, 0x00, 0x08, 0x00, 0x00, 0x00, 0x61, 0x2F, 0x53, 0x2E, 0x6A, 0x61, 0x76, 0x61, 0x70,
    0x61, 0x63, 0x6B, 0x61, 0x67, 0x65, 0x20, 0x61, 0x2E, 0x2F, 0x2A, 0x2A, 0x2F, 0x62, 0x3B,
    0x63, 0x6C, 0x61, 0x73, 0x73, 0x20, 0x53, 0x20, 0x65, 0x78, 0x74, 0x65, 0x6E, 0x64, 0x73,
    0x20, 0x54, 0x7B, 0x7D, 0x50, 0x4B, 0x03, 0x04, 0x14, 0x00, 0x00, 0x00, 0x00, 0x00, 0x00,
    0x00, 0x21, 0x00, 0x00, 0x00, 0x00, 0x00, 0x00, 0x00, 0x00, 0x00, 0x00, 0x00, 0x00, 0x00,
    0x0D, 0x00, 0x00, 0x00, 0x61, 0x2F, 0x2A, 0x2A, 0x2F, 0x62, 0x2F, 0x54, 0x2E, 0x6A, 0x61,
    0x76, 0x61, 0x50, 0x4B, 0x01, 0x02, 0x14, 0x00, 0x14, 0x00, 0x00, 0x00, 0x00, 0x00, 0x00,
    0x00, 0x21, 0x00, 0xA7, 0x5D, 0xF0, 0x7B, 0x1E, 0x00, 0x00, 0x00, 0x1E, 0x00, 0x00, 0x00,
    0x06, 0x00, 0x00, 0x00, 0x00, 0x00, 0x00, 0x00, 0x00, 0x00, 0x00, 0x00, 0x80, 0x01, 0x00,
    0x00, 0x00, 0x00, 0x54, 0x2E, 0x6A, 0x61, 0x76, 0x61, 0x50, 0x4B, 0x01, 0x02, 0x14, 0x00,
    0x14, 0x00, 0x00, 0x00, 0x00, 0x00, 0x00, 0x00, 0x21, 0x00, 0xF8, 0xFE, 0x60, 0x04, 0x23,
    0x00, 0x00, 0x00, 0x23, 0x00, 0x00, 0x00, 0x08, 0x00, 0x00, 0x00, 0x00, 0x00, 0x00, 0x00,
    0x00, 0x00, 0x00, 0x00, 0x80, 0x01, 0x42, 0x00, 0x00, 0x00, 0x61, 0x2F, 0x53, 0x2E, 0x6A,
    0x61, 0x76, 0x61, 0x50, 0x4B, 0x01, 0x02, 0x14, 0x00, 0x14, 0x00, 0x00, 0x00, 0x00, 0x00,
    0x00, 0x00, 0x21, 0x00, 0x00, 0x00, 0x00, 0x00, 0x00, 0x00, 0x00, 0x00, 0x00, 0x00, 0x00,
    0x00, 0x0D, 0x00, 0x00, 0x00, 0x00, 0x00, 0x00, 0x00, 0x00, 0x00, 0x00, 0x00, 0x80, 0x01,
    0x8B, 0x00, 0x00, 0x00, 0x61, 0x2F, 0x2A, 0x2A, 0x2F, 0x62, 0x2F, 0x54, 0x2E, 0x6A, 0x61,
    0x76, 0x61, 0x50, 0x4B, 0x05, 0x06, 0x00, 0x00, 0x00, 0x00, 0x03, 0x00, 0x03, 0x00, 0xA5,
    0x00, 0x00, 0x00, 0xB6, 0x00, 0x00, 0x00, 0x00, 0x00]⟩

/-- A directory with the three sources, and the archive of them. -/
def store : Disk where
  nodes :=
    [(["d"], .directory), (["d", "T.java"], .file "import a.*;class T extends S{}".toUTF8),
      (["d", "a"], .directory),
      (["d", "a", "S.java"], .file "package a./**/b;class S extends T{}".toUTF8),
      (["d", "a", "**"], .directory), (["d", "a", "**", "b"], .directory),
      (["d", "a", "**", "b", "T.java"], .file "".toUTF8), (["x.jar"], .file bundle)]

theorem segments_sources :
    (Files.Path.mk "T.java").segments = ["T.java"] ∧
      (Files.Path.mk "a/S.java").segments = ["a", "S.java"] ∧
      (Files.Path.mk "a/**/b/T.java").segments = ["a", "**", "b", "T.java"] := by
  decide

/-- The files below the directory are the three sources. -/
theorem file_store_iff (text : String) (content : ByteArray) :
    store.node? (["d"] ++ (Files.Path.mk text).segments) = some (.file content) ↔
      sources.lookup text = some content := by
  obtain ⟨top, written, package⟩ := segments_sources
  constructor
  · intro there
    have listed := Disk.mem_nodes_of_node? (by simp) there
    simp only [store, List.mem_cons, List.not_mem_nil, Prod.mk.injEq, List.cons_append,
      List.nil_append, List.cons.injEq, reduceCtorEq, and_false, true_and, false_or, or_false,
      Node.file.injEq] at listed
    rcases listed with ⟨same, rfl⟩ | ⟨same, rfl⟩ | ⟨same, rfl⟩ | ⟨⟨other, -⟩, -⟩
    · obtain rfl : text = "T.java" := Files.Path.text_eq_of_segments (same.trans top.symm)
      rfl
    · obtain rfl : text = "a/S.java" := Files.Path.text_eq_of_segments (same.trans written.symm)
      rfl
    · obtain rfl : text = "a/**/b/T.java" := Files.Path.text_eq_of_segments (same.trans package.symm)
      rfl
    · exact absurd other (by decide)
  · intro found
    obtain ⟨first, rest, split, -⟩ := List.lookup_eq_some_iff.mp found
    have listed : (text, content) ∈ sources := by simp [split]
    simp only [sources, List.mem_cons, List.not_mem_nil, Prod.mk.injEq, or_false] at listed
    rcases listed with ⟨rfl, rfl⟩ | ⟨rfl, rfl⟩ | ⟨rfl, rfl⟩
    · rw [top]
      rfl
    · rw [written]
      rfl
    · rw [package]
      rfl

theorem holds_store : store.Holds ⟨"d"⟩ sources ["d"] where
  leads := by
    have segments : (Files.Path.mk "d").segments = ["d"] := by decide
    exact store.resolve_of_leadsDown segments (by decide) rfl
  here := rfl
  files := file_store_iff
  plain below target there := by
    have listed := Disk.mem_nodes_of_node? (by simp) there
    simp [store] at listed
  rooted below name there := by
    obtain ⟨node, here⟩ := Option.ne_none_iff_exists'.mp there
    have listed := Disk.mem_nodes_of_node? (by simp) here
    have above : ∀ entry ∈ store.nodes,
        (store.node? entry.1.dropLast).any Node.isDirectory = true := by
      decide
    have inside := above _ listed
    rw [← List.append_assoc, List.dropLast_concat] at inside
    obtain ⟨node, standing, isDirectory⟩ := (Option.any_eq_true ..).mp inside
    rw [standing]
    cases node with
    | directory => rfl
    | file content | link target => cases isDirectory

theorem seen_store : seen store ⟨[⟨"d"⟩]⟩ = [Root.view store.sourceIn? (.directory ⟨"d"⟩)] :=
  seen_append_cons (viewAt_of_holds holds_store) [] []

theorem seen_store_archive {content : Archive} (packs : Packs store ⟨"x.jar"⟩ sources content) :
    seen store ⟨[⟨"x.jar"⟩]⟩ = [Root.view store.sourceIn? (.archive ⟨"x.jar"⟩ content)] :=
  seen_append_cons (viewAt_of_packs packs) [] []

/-- The directory shows the text of a source. -/
theorem declaration?_store {raw text : String} {unit : Java.Unit} {declaration : Java.Declaration}
    (clean : (TypeName.ofString raw).Clean)
    (held : sources.lookup (TypeName.ofString raw).sourcePath = some text.toUTF8)
    (parsed : Java.Unit.ofText? text = some unit)
    (declared : unit.declaration? (TypeName.ofString raw).simple = some declaration) :
    View.declaration? (seen store ⟨[⟨"d"⟩]⟩) (.ofString raw) = some (unit, declaration) := by
  have shown : ((seen store ⟨[⟨"d"⟩]⟩).findSome? fun view => view.text? (.ofString raw)) =
      some (some text) := by
    simp only [seen_store, List.findSome?_cons, Root.view]
    rw [sourceIn?_of_holds holds_store clean, held, Option.map_some, fromUTF8?_toUTF8]
  exact View.declaration?_of_text shown parsed declared

theorem anyHas_store {raw : String} (clean : (TypeName.ofString raw).Clean) :
    ((seen store ⟨[⟨"d"⟩]⟩).any fun view => view.has (.ofString raw)) =
      (sources.lookup (TypeName.ofString raw).sourcePath).isSome := by
  simp only [seen_store, List.any_cons, List.any_nil, Bool.or_false, Root.view]
  rw [sourceIn?_of_holds holds_store clean]

/-- The first of the sources, as it is understood. -/
def importing : Java.Unit where
  imports := [{ path := "a", onDemand := true }]
  declarations := [{ kind := .class, name := "T", superclass := some "S" }]

theorem ofText?_importing : Java.Unit.ofText? "import a.*;class T extends S{}" = some importing := by
  decide +kernel

theorem declaration?_store_top : View.declaration? (seen store ⟨[⟨"d"⟩]⟩) (.ofString "T") =
    some (importing, { kind := .class, name := "T", superclass := some "S" }) := by
  have held : sources.lookup (TypeName.ofString "T").sourcePath =
      some "import a.*;class T extends S{}".toUTF8 := by
    decide
  refine declaration?_store ?_ held ofText?_importing ?_
  · decide
  · decide

theorem answerAfter_store : answerAfter (fresh ⟨[⟨"d"⟩]⟩ store) [] (.ofString "T") =
    some { subject := ⟨"T"⟩, superclass := some ⟨"a/S"⟩ } := by
  have tried : Resolution.candidates importing "S" = [.ofString "S", .ofString "a.S"] := by
    decide
  have absent : ((seen store ⟨[⟨"d"⟩]⟩).any fun view => view.has (.ofString "S")) = false := by
    rw [anyHas_store (by decide)]
    decide
  have there : ((seen store ⟨[⟨"d"⟩]⟩).any fun view => view.has (.ofString "a.S")) = true := by
    rw [anyHas_store (by decide)]
    decide
  rw [answerAfter_of_unchanged _ _ (by simp), View.factOf, declaration?_store_top, Option.map_some,
    Resolution.fact, Resolution.superclass]
  simp only
  rw [Resolution.resolve_of_simple (by decide) (by decide), tried]
  simp only [List.find?_cons, absent, there]
  decide

/-- The source whose package has a comment in its name, as it is understood. -/
def commented : Java.Unit where
  package := "a./**/b"
  declarations := [{ kind := .class, name := "S", superclass := some "T" }]

/-- Its superclass is sought in the package with the comment. -/
theorem factOf_commented {views : List View}
    (found : View.declaration? views (.ofString "a.S") =
      some (commented, { kind := .class, name := "S", superclass := some "T" })) :
    View.factOf views (.ofString "a.S") = some {
      subject := .ofString "a.S"
      superclass := some (if views.any fun view => view.has ⟨"a//**/b/T"⟩ then ⟨"a//**/b/T"⟩
        else ⟨"java/lang/T"⟩) } := by
  have tried : Resolution.candidates commented "T" = [⟨"a//**/b/T"⟩] := by decide
  have fallback : Resolution.inPackage "java.lang" "T" = ⟨"java/lang/T"⟩ := by decide
  rw [View.factOf, found, Option.map_some, Resolution.fact, Resolution.superclass]
  simp only
  rw [Resolution.resolve_of_simple (by decide) (by decide), tried, fallback]
  cases there : views.any fun view => view.has ⟨"a//**/b/T"⟩ with
  | true =>
    simp only [List.find?_cons, there]
    rfl
  | false =>
    simp only [List.find?_cons, there]
    rfl

/-- The directory has the type in the package with the comment. -/
theorem anyHas_store_blank :
    ((seen store ⟨[⟨"d"⟩]⟩).any fun view => view.has ⟨"a//**/b/T"⟩) = true := by
  have segments : (Root.unitPath ⟨"d"⟩ ⟨"a//**/b/T"⟩).segments =
      ["d", "a", "", "**", "b", "T.java"] := by
    decide
  simp only [seen_store, List.any_cons, List.any_nil, Bool.or_false, Root.view]
  rw [Disk.sourceIn?, Disk.read,
    store.resolve_of_leadsDown segments (by decide) (by decide)]
  rfl

/-- The archive has not. -/
theorem anyHas_archive_blank {content : Archive} (packs : Packs store ⟨"x.jar"⟩ sources content) :
    ((seen store ⟨[⟨"x.jar"⟩]⟩).any fun view => view.has ⟨"a//**/b/T"⟩) = false := by
  have path : (TypeName.mk "a//**/b/T").sourcePath = "a//**/b/T.java" := by decide
  simp only [seen_store_archive packs, List.any_cons, List.any_nil, Bool.or_false, Root.view, path,
    Archive.hasEntry]
  rw [packs.only _ (by decide)]

theorem entry?_eq_none {content : Archive} {name : String}
    (unlisted : name ∉ content.entries.map Archive.Entry.name) : content.entry? name = none := by
  rw [Archive.entry?, List.findRev?_eq_find?_reverse, List.find?_eq_none]
  intro entry member same
  refine unlisted (List.mem_map.mpr ⟨entry, List.mem_reverse.mp member, ?_⟩)
  exact beq_iff_eq.mp same

theorem exists_packs_store : ∃ content, Packs store ⟨"x.jar"⟩ sources content := by
  have unpacked : ((Archive.ofBytes bundle).toOption.map fun content =>
      (content.entries.map Archive.Entry.name, sources.map fun file =>
        (content.entry? file.1).bind fun entry => (content.openEntry entry).toOption.bind
          fun opened => opened.content.toOption)) =
      some (sources.map Prod.fst, sources.map fun file => some file.2) := by
    decide +kernel
  have segments : (Files.Path.mk "x.jar").segments = ["x.jar"] := by decide
  have there : store.read ⟨"x.jar"⟩ = .ok bundle :=
    store.read_of_leadsDown segments (by decide) rfl rfl
  obtain ⟨content, opened, same⟩ := Option.map_eq_some_iff.mp unpacked
  obtain ⟨names, found⟩ := Prod.mk.inj same
  refine ⟨content, ⟨bundle, there, ok_of_toOption opened⟩, ?_, ?_⟩
  · intro name bytes held
    obtain ⟨first, rest, split, -⟩ := List.lookup_eq_some_iff.mp held
    have given := List.map_inj_left.mp found (name, bytes) (by simp [split])
    obtain ⟨entry, listed, given⟩ := Option.bind_eq_some_iff.mp given
    obtain ⟨opened, opens, given⟩ := Option.bind_eq_some_iff.mp given
    exact ⟨entry, opened, listed, ok_of_toOption opens, ok_of_toOption given⟩
  · intro name free
    refine entry?_eq_none ?_
    rw [names]
    intro listed
    obtain ⟨file, member, rfl⟩ := List.mem_map.mp listed
    exact absurd (List.lookup_eq_none_iff.mp free file member) (by simp)

theorem superclass_in_either_packing :
    answerAfter (fresh ⟨[⟨"x.jar"⟩]⟩ store) [] (.ofString "T") =
      some { subject := ⟨"T"⟩, superclass := some ⟨"a/S"⟩ } := by
  obtain ⟨content, packs⟩ := exists_packs_store
  refine (packing_changes_no_fact store [] [] ⟨"d"⟩ ⟨"x.jar"⟩ sources ["d"] content holds_store packs
    [] "T" (by decide) ?_).symm.trans answerAfter_store
  intro unit declaration found
  obtain ⟨rfl, rfl⟩ := Prod.mk.inj (Option.some.inj (declaration?_store_top.symm.trans found))
  decide

/-- **Packing matters to commented packages**: a directory and an archive of the same files can tell
different facts, though no part of the name that is asked for is empty, nor any name on the way to a
file. -/
theorem packing_matters_to_commented_packages :
    ¬ ∀ (disk : Disk) (directory archive : Files.Path) (files : List (String × ByteArray))
      (place : Place) (content : Archive),
      disk.Holds directory files place → Packs disk archive files content →
      (∀ file ∈ files, "" ∉ (Files.Path.mk file.1).segments ∧
        file.1.toList.all fun c => c.val < 128) →
      ∀ raw, "" ∉ (Files.Path.mk (TypeName.ofString raw).internal).segments →
        answerAfter (fresh ⟨[directory]⟩ disk) [] (.ofString raw) =
          answerAfter (fresh ⟨[archive]⟩ disk) [] (.ofString raw) := by
  intro claim
  obtain ⟨content, packs⟩ := exists_packs_store
  have same := claim store ⟨"d"⟩ ⟨"x.jar"⟩ sources ["d"] content holds_store packs
    (by decide) "a.S" (by decide)
  have clean : (TypeName.ofString "a.S").Clean := by decide
  have found : View.declaration? (seen store ⟨[⟨"d"⟩]⟩) (.ofString "a.S") =
      some (commented, { kind := .class, name := "S", superclass := some "T" }) := by
    have held : sources.lookup (TypeName.ofString "a.S").sourcePath =
        some "package a./**/b;class S extends T{}".toUTF8 := by
      decide
    refine declaration?_store clean held ?_ ?_
    · decide +kernel
    · decide
  have packed : View.declaration? (seen store ⟨[⟨"x.jar"⟩]⟩) (.ofString "a.S") =
      some (commented, { kind := .class, name := "S", superclass := some "T" }) := by
    rw [seen_store] at found
    rw [seen_store_archive packs, ← found]
    exact (declaration?_congr (text?_of_packs holds_store packs clean) [] []).symm
  rw [answerAfter_of_unchanged _ _ (by simp), answerAfter_of_unchanged _ _ (by simp),
    factOf_commented found, factOf_commented packed] at same
  rw [anyHas_store_blank, anyHas_archive_blank packs] at same
  exact absurd same (by decide)

end TypeLineage.Classpath
