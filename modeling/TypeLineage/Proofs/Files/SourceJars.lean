import TypeLineage.Proofs.Files.Entries
import TypeLineage.Proofs.Files.Rules
import TypeLineage.Proofs.Text.Bytes

/-!
# Which source archives are found

Of all that a walk reports, the source archives are picked by their names alone. So what is found are
the files of such a name exactly if none of them is passed over and nothing but files that has such a
name is reported (`sourceJars_are_files_iff`). A directory of such a name is found with the archives,
and an archive is missed where a rule says so (`directory_found_and_archive_missed`).
-/

namespace TypeLineage.Files

/-- The name at the end of a path ends as the name of a source archive does. -/
def Path.NamesSourceJar (path : Path) : Prop :=
  ∃ stem, path.fileName? = some (stem ++ "-sources.jar")

theorem endsWith_sourcesJar_iff {text : String} :
    text.endsWith "-sources.jar" = true ↔ ∃ stem, text = stem ++ "-sources.jar" := by
  rw [String.endsWith_eq_endsWith_toSlice, String.Slice.endsWith_string_iff, String.copy_toSlice]
  constructor
  · rintro ⟨stem, split⟩
    refine ⟨String.ofList stem, String.toList_inj.mp ?_⟩
    rw [String.toList_append, String.toList_ofList, split]
  · rintro ⟨stem, rfl⟩
    exact ⟨stem.toList, String.toList_append.symm⟩

/-- The name of a source archive is a text that ends as such names do. -/
theorem isSourceJarName_iff {name : ByteArray} :
    isSourceJarName name = true ↔ ∃ stem : String, name = (stem ++ "-sources.jar").toUTF8 := by
  rw [isSourceJarName]
  constructor
  · intro named
    split at named
    case h_1 => cases named
    case h_2 text read =>
      obtain ⟨stem, rfl⟩ := endsWith_sourcesJar_iff.mp named
      exact ⟨stem, fromUTF8?_eq_some_iff.mp read⟩
  · rintro ⟨stem, rfl⟩
    rw [fromUTF8?_toUTF8]
    exact endsWith_sourcesJar_iff.mpr ⟨stem, rfl⟩

theorem Path.namesSourceJar_iff {path : Path} :
    path.NamesSourceJar ↔ isSourceJar path = true := by
  rw [isSourceJar, NamesSourceJar]
  cases path.fileName? with
  | none => simp
  | some name =>
    rw [Option.any_some, isSourceJarName_iff]
    exact exists_congr fun stem => Option.some_inj.trans String.toByteArray_inj.symm

theorem mem_sourceJarsAmong_iff {path : Path} {reported : List Path} :
    path ∈ sourceJarsAmong reported ↔ path ∈ reported ∧ path.NamesSourceJar := by
  rw [sourceJarsAmong, (Path.sort_perm _).mem_iff, List.mem_filter, Path.namesSourceJar_iff]

section

variable {reported others : List Path}

end

namespace Disk

variable {disk : Disk} {base path : Path}

theorem findSourceJars_of_isDirectory (there : disk.isDirectory base = true) :
    disk.findSourceJars base = .ok (sourceJarsAmong (disk.entries base)) :=
  if_pos there

/-- What is found has the name of a source archive and is reported. -/
theorem Consistent.mem_sourceJarsAmong_entries_iff (consistent : disk.Consistent)
    (there : disk.isDirectory base = true) : path ∈ sourceJarsAmong (disk.entries base) ↔
      path.NamesSourceJar ∧ ∃ node, disk.Reports base path node := by
  rw [mem_sourceJarsAmong_iff, consistent.mem_entries_iff there, and_comm, and_congr_right_iff]
  intro named
  refine ⟨?_, .inr⟩
  rintro (⟨-, rfl⟩ | reported)
  · exact absurd (Path.namesSourceJar_iff.mp named) (by decide)
  · exact reported

/-- At a path below a base stands one thing. -/
theorem Consistent.eq_of_entry (consistent : disk.Consistent) {node other : Node}
    (there : disk.isDirectory base = true) (entry : disk.Entry base path node)
    (entry' : disk.Entry base path other) : node = other := by
  obtain ⟨filled, -⟩ := exists_place_of_isDirectory there
  obtain ⟨place, names, led, lies, rfl⟩ := entry
  obtain ⟨place', names', led', lies', same⟩ := entry'
  cases led.symm.trans led'
  have sound := consistent.isEntryName_of_node? lies.node?_eq
  have sound' := consistent.isEntryName_of_node? lies'.node?_eq
  obtain rfl := eq_of_components_pathBelow filled sound sound' (congrArg Path.components same)
  exact Option.some.inj (lies.node?_eq.symm.trans lies'.node?_eq)

/-- **What is found are the archives exactly if no rule and no directory interferes.** What is found
below a directory is all that is reported with the name of a source archive, be it a file or not. So
the files of such a name are found and nothing else exactly if all that is reported with such a name
are files, and all files with such a name are reported. -/
theorem sourceJars_are_files_iff (consistent : disk.Consistent)
    (there : disk.isDirectory base = true) :
    ∃ jars, disk.findSourceJars base = .ok jars ∧
      (∀ path, path ∈ jars ↔ path.NamesSourceJar ∧ ∃ node, disk.Reports base path node) ∧
      ((∀ path, path ∈ jars ↔
          path.NamesSourceJar ∧ ∃ content, disk.Entry base path (.file content)) ↔
        (∀ path node, path.NamesSourceJar → disk.Reports base path node →
          ∃ content, node = .file content) ∧
        (∀ path content, path.NamesSourceJar → disk.Entry base path (.file content) →
          disk.Reports base path (.file content))) := by
  have found : ∀ path, path ∈ sourceJarsAmong (disk.entries base) ↔
      path.NamesSourceJar ∧ ∃ node, disk.Reports base path node :=
    fun _ => consistent.mem_sourceJarsAmong_entries_iff there
  refine ⟨_, findSourceJars_of_isDirectory there, found, ?_, ?_⟩
  · intro claimed
    constructor
    · intro path node named reports
      obtain ⟨-, content, entry⟩ := (claimed path).mp ((found path).mpr ⟨named, node, reports⟩)
      exact ⟨content, consistent.eq_of_entry there reports.entry entry⟩
    · intro path content named entry
      obtain ⟨-, node, reports⟩ := (found path).mp ((claimed path).mpr ⟨named, content, entry⟩)
      rwa [← consistent.eq_of_entry there reports.entry entry]
  · rintro ⟨files, all⟩ path
    rw [found, and_congr_right_iff]
    intro named
    constructor
    · rintro ⟨node, reports⟩
      obtain ⟨content, rfl⟩ := files path node named reports
      exact ⟨content, reports.entry⟩
    · rintro ⟨content, entry⟩
      exact ⟨_, all path content named entry⟩

/-! ### A directory called as an archive is, and an archive under a rule -/

/-- A directory with another one that is called as an archive is, and with an archive in a third one,
where a rule passes everything over. -/
def repository : Disk where
  nodes := [(["m2"], .directory), (["m2", "a"], .directory),
    (["m2", "a", ".ignore"], .file "*\n".toUTF8), (["m2", "a", "x-sources.jar"], .file "x".toUTF8),
    (["m2", "d-sources.jar"], .directory)]

theorem consistent_repository : repository.Consistent where
  once := by decide
  named := by decide

theorem isDirectory_repository : repository.isDirectory ⟨"m2"⟩ = true := by
  have segments : (Path.mk "m2").segments = ["m2"] := by decide
  exact repository.isDirectory_of_leadsDown segments (by decide) rfl rfl

theorem resolve_repository : repository.resolve ⟨"m2"⟩ = .ok ["m2"] := by
  have segments : (Path.mk "m2").segments = ["m2"] := by decide
  exact repository.resolve_of_leadsDown segments (by decide) rfl

/-- The rule of a star. -/
def passesAllOver : IgnoreRule where
  pattern := [[.anyAtStart, .many]]

theorem ofText_star : IgnoreRule.ofText (IgnoreRule.readable "*\n".toUTF8) = [passesAllOver] := by
  decide +kernel

/-- In the directory of the rule nothing is visited. -/
theorem visited_repository_a {name : String} {content : ByteArray}
    (concerned : passesAllOver.concerns name false = true) :
    repository.visited ["m2"] ["a", name] (.file content) = false := by
  have rules : repository.ignoreRules (["m2"] ++ ["a"]) = [passesAllOver] :=
    (ignoreRules_of_node? rfl rfl).trans ofText_star
  have decides : decideBy (repository.ignoreRules (["m2"] ++ ["a"])) name false = some true := by
    rw [rules, decideBy]
    simp [concerned]
    rfl
  have skipped : repository.passedOver ["m2"] ["a", name] false = true :=
    passedOver_of_decideBy decides
  simp [visited, Node.isDirectory, skipped]

/-- Outside of it there are no rules. -/
theorem passedOver_repository (name : String) :
    repository.passedOver ["m2"] [name] true = false := by
  refine passedOver_eq_false fun directory rest more split => ?_
  rcases directory with _ | ⟨first, _ | ⟨second, directory⟩⟩
  · exact ignoreRules_of_not_holdsRules (not_holdsRules_of_node? rfl)
  · cases split
    exact ignoreRules_of_not_holdsRules (not_holdsRules_of_node? rfl)
  · exact absurd split (by simp [more])

/-- So a directory there is reported whatever it is called. -/
theorem directory_reported : repository.Consistent ∧ repository.isDirectory ⟨"m2"⟩ = true ∧
    ∃ jars, repository.findSourceJars ⟨"m2"⟩ = .ok jars ∧ ⟨"m2/d-sources.jar"⟩ ∈ jars ∧
      ¬ ∀ path, path ∈ jars ↔
        path.NamesSourceJar ∧ ∃ content, repository.Entry ⟨"m2"⟩ path (.file content) := by
  obtain ⟨jars, found, member, exactly⟩ :=
    sourceJars_are_files_iff consistent_repository isDirectory_repository
  have named : (Path.mk "m2/d-sources.jar").NamesSourceJar := ⟨"d", by decide⟩
  have reports : repository.Reports ⟨"m2"⟩ ⟨"m2/d-sources.jar"⟩ .directory :=
    ⟨by decide, ["m2"], ["d-sources.jar"], resolve_repository,
      .inside (.here rfl) rfl (passedOver_repository "d-sources.jar"), by decide⟩
  refine ⟨consistent_repository, isDirectory_repository, jars, found,
    (member _).mpr ⟨named, _, reports⟩, fun claimed => ?_⟩
  obtain ⟨content, file⟩ := (exactly.mp claimed).1 _ _ named reports
  cases file

theorem entries_repository :
    repository.entries ⟨"m2"⟩ = [⟨"m2"⟩, ⟨"m2/a"⟩, ⟨"m2/d-sources.jar"⟩] := by
  have below : repository.below ["m2"] = [(["a"], .directory),
    (["a", ".ignore"], .file "*\n".toUTF8), (["a", "x-sources.jar"], .file "x".toUTF8),
    (["d-sources.jar"], .directory)] := rfl
  have concerned : passesAllOver.concerns ".ignore" false = true ∧
      passesAllOver.concerns "x-sources.jar" false = true := by decide +kernel
  rw [entries, if_neg (by decide), resolve_repository]
  have kept : ∀ name, repository.visited ["m2"] [name] .directory = true := by
    intro name
    simp [visited, Node.isDirectory, passedOver_repository]
  simp only [below, List.filterMap_cons, List.filterMap_nil, kept, visited_repository_a concerned.1,
    visited_repository_a concerned.2, if_true, Bool.false_eq_true, if_false]
  decide

/-- **A directory is found with the archives, and an archive is missed.** -/
theorem directory_found_and_archive_missed :
    repository.findSourceJars ⟨"m2"⟩ = .ok [⟨"m2/d-sources.jar"⟩] ∧
    repository.Entry ⟨"m2"⟩ ⟨"m2/d-sources.jar"⟩ .directory ∧
    repository.Entry ⟨"m2"⟩ ⟨"m2/a/x-sources.jar"⟩ (.file "x".toUTF8) ∧
    ¬ ∀ path, path ∈ [⟨"m2/d-sources.jar"⟩] ↔
      path.NamesSourceJar ∧ ∃ content, repository.Entry ⟨"m2"⟩ path (.file content) := by
  have directory : repository.Entry ⟨"m2"⟩ ⟨"m2/d-sources.jar"⟩ .directory :=
    ⟨["m2"], ["d-sources.jar"], resolve_repository, .inside (.here rfl) rfl trivial, by decide⟩
  have archive : repository.Entry ⟨"m2"⟩ ⟨"m2/a/x-sources.jar"⟩ (.file "x".toUTF8) :=
    ⟨["m2"], ["a", "x-sources.jar"], resolve_repository,
      .inside (.inside (.here rfl) rfl trivial) rfl trivial, by decide⟩
  refine ⟨?_, directory, archive, ?_⟩
  · rw [findSourceJars_of_isDirectory isDirectory_repository, entries_repository]
    decide +kernel
  · intro claimed
    have named : (Path.mk "m2/a/x-sources.jar").NamesSourceJar := ⟨"x", by decide⟩
    exact absurd ((claimed _).mpr ⟨named, _, archive⟩) (by decide)

end Disk

end TypeLineage.Files
