import TypeLineage.CommandLine.Program
import TypeLineage.Proofs.Classpath.Batch
import TypeLineage.Proofs.Query.Lines

/-!
# All or nothing

A command either has an obstacle, and then nothing but a message is printed, or there is a report with
a result for every query (`all_or_nothing`). What an obstacle can be is said once (`Obstacle`): it is
in the setting, and never below a root. A root that is missing or broken, a text that cannot be read
and a type that is found nowhere show in the results only.
-/

namespace TypeLineage.CommandLine

open Classpath

/-! ### What a command finds -/

/-- The value of the variable, without blanks at its ends, is one that switches the program off. -/
def SwitchesOff (value : String) : Prop :=
  ∃ off ∈ ["0", "false", "off", "no"], (Text.trim value.toList).map Char.toLower = off.toList

/-- The repository that is named, or else the one below the home directory. -/
def chosenRepository? (setting : Setting) (invocation : Invocation) : Option Files.Path :=
  invocation.repository <|>
    (setting.home.filter fun home => !home.isEmpty).map repositoryBelow

/-- The named roots, and behind them the source archives of the repository if they are asked for. -/
def rootsOf (setting : Setting) (invocation : Invocation) : List Files.Path :=
  invocation.sources ++
    if invocation.repositorySources then
      (chosenRepository? setting invocation).elim [] setting.disk.sourceJars
    else []

/-- The text of a batch, from the standard input or a file. -/
def batchText? (setting : Setting) (file : Files.Path) : Option String :=
  (if file.text = "-" then some setting.input
    else (setting.disk.read file).toOption).bind String.fromUTF8?

/-- The queries of a command. -/
inductive Asked (setting : Setting) : Command → List Query → Prop
  /-- A single question is asked without the wish to release. -/
  | ask (question : Engine.Question) : Asked setting (.ask question) [{ question }]
  /-- A batch has a query in each line that is not blank. -/
  | batch {file : Files.Path} {content : String} {queries : List Query} :
    batchText? setting file = some content →
    List.Forall₂ Query.Reads (Query.written (Text.lines content.toList)) queries →
      Asked setting (.batch file) queries

/-- What keeps a command from being performed. -/
inductive Obstacle (setting : Setting) (invocation : Invocation) : Prop
  /-- The program is switched off. -/
  | switchedOff {value : String} : setting.switch = some value → SwitchesOff value →
    Obstacle setting invocation
  /-- The repository is needed and is no directory; nor is it one if there is no home directory. -/
  | noRepository : invocation.repositorySources = true →
    (∀ path, chosenRepository? setting invocation = some path →
      setting.disk.isDirectory path = false) →
    Obstacle setting invocation
  /-- There are no roots. -/
  | noRoots : rootsOf setting invocation = [] → Obstacle setting invocation
  /-- The batch cannot be read, or is no text. -/
  | unreadable {file : Files.Path} : invocation.command = .batch file →
    batchText? setting file = none → Obstacle setting invocation
  /-- A line of the batch is neither blank nor a query. -/
  | badLine {file : Files.Path} {content : String} {line : List Char} :
    invocation.command = .batch file → batchText? setting file = some content →
    line ∈ Query.written (Text.lines content.toList) → (∀ query, ¬ Query.Reads line query) →
    Obstacle setting invocation

variable (setting : Setting) (invocation : Invocation)

/-! ### The switch -/

theorem switchesOff_iff {value : String} : SwitchesOff value ↔
    String.ofList ((Text.trim value.toList).map Char.toLower) ∈ offValues := by
  constructor
  · rintro ⟨off, member, same⟩
    rw [same, String.ofList_toList]
    exact member
  · intro member
    exact ⟨_, member, String.toList_ofList.symm⟩

theorem isSwitchedOn_eq_false_iff {value? : Option String} :
    isSwitchedOn value? = false ↔ ∃ value, value? = some value ∧ SwitchesOff value := by
  cases value? with
  | none => simp [isSwitchedOn]
  | some value => simp [isSwitchedOn, switchesOff_iff]

/-! ### The roots -/

/-- The repository is the chosen one, if there is a home directory where it is needed. -/
theorem repositoryOf_cases :
    (∃ path, repositoryOf invocation setting.home = .ok path ∧
      chosenRepository? setting invocation = some path) ∨
    (∃ failure, repositoryOf invocation setting.home = .error failure ∧
      chosenRepository? setting invocation = none) := by
  unfold repositoryOf chosenRepository?
  cases invocation.repository with
  | some path => exact .inl ⟨path, rfl, rfl⟩
  | none =>
    cases setting.home with
    | none => exact .inr ⟨.noHome, rfl, rfl⟩
    | some home =>
      by_cases empty : home.isEmpty = true
      · exact .inr ⟨.noHome, if_pos empty, by simp [Option.filter, empty]⟩
      · exact .inl ⟨repositoryBelow home, if_neg empty, by simp [Option.filter, empty]⟩

/-- The repository is a directory if it is needed. -/
def HasRepository : Prop :=
  invocation.repositorySources = true → ∃ path,
    chosenRepository? setting invocation = some path ∧ setting.disk.isDirectory path = true

/-- All but the number of roots is well if the repository is a directory. -/
theorem classpathOf_of_hasRepository (has : HasRepository setting invocation) :
    classpathOf invocation setting.home setting.disk =
      if (rootsOf setting invocation).isEmpty then .error .noRoots
      else .ok ⟨rootsOf setting invocation⟩ := by
  unfold classpathOf rootsOf
  cases asked : invocation.repositorySources with
  | false => rfl
  | true =>
    obtain ⟨path, chosen, directory⟩ := has asked
    rcases repositoryOf_cases setting invocation with ⟨other, found, same⟩ | ⟨failure, -, none⟩
    · rw [chosen] at same
      cases same
      simp only [if_true, found, bind, Except.bind, Files.Disk.findSourceJars, directory,
        Except.mapError, chosen]
      rfl
    · rw [chosen] at none
      cases none

/-- There is no class path if the repository is needed and is no directory. -/
theorem classpathOf_of_not_hasRepository (has : ¬ HasRepository setting invocation) :
    ∃ failure, classpathOf invocation setting.home setting.disk = .error failure := by
  obtain ⟨asked, none⟩ := Classical.not_imp.mp has
  unfold classpathOf
  rcases repositoryOf_cases setting invocation with ⟨path, found, chosen⟩ | ⟨failure, failed, -⟩
  · have other : setting.disk.isDirectory path = false := by
      rw [← Bool.not_eq_true]
      intro directory
      exact none ⟨path, chosen, directory⟩
    refine ⟨.badRepository ⟨path⟩, ?_⟩
    simp only [asked, if_true, found, bind, Except.bind, Files.Disk.findSourceJars, other,
      Bool.false_eq_true, if_false, Except.mapError]
  · refine ⟨failure, ?_⟩
    simp only [asked, if_true, failed]
    rfl

/-- There is a class path of the roots, or an obstacle. -/
theorem classpathOf_cases :
    (classpathOf invocation setting.home setting.disk = .ok ⟨rootsOf setting invocation⟩ ∧
      rootsOf setting invocation ≠ [] ∧ HasRepository setting invocation) ∨
    ∃ failure, classpathOf invocation setting.home setting.disk = .error failure ∧
      Obstacle setting invocation := by
  by_cases has : HasRepository setting invocation
  · rw [classpathOf_of_hasRepository setting invocation has]
    by_cases empty : rootsOf setting invocation = []
    · right
      exact ⟨.noRoots, if_pos (List.isEmpty_iff.mpr empty), .noRoots empty⟩
    · left
      exact ⟨if_neg (by rwa [List.isEmpty_iff]), empty, has⟩
  · right
    obtain ⟨failure, failed⟩ := classpathOf_of_not_hasRepository setting invocation has
    obtain ⟨asked, none⟩ := Classical.not_imp.mp has
    refine ⟨failure, failed, .noRepository asked ?_⟩
    intro path chosen
    rw [← Bool.not_eq_true]
    intro directory
    exact none ⟨path, chosen, directory⟩

/-! ### The queries -/

theorem toOption_contentOf (file : Files.Path) :
    (contentOf setting file).toOption = batchText? setting file := by
  unfold contentOf batchText?
  by_cases input : file.text = "-"
  · simp only [inputName, input, if_true, Option.bind_some]
    cases String.fromUTF8? setting.input <;> rfl
  · simp only [inputName, input, if_false, ← Files.Disk.toOption_readText]
    cases setting.disk.readText file <;> rfl

/-- There are the queries of the command, or an obstacle. -/
theorem queriesOf_cases :
    (∃ queries, queriesOf setting invocation.command = .ok queries ∧
      Asked setting invocation.command queries) ∨
    ∃ failure, queriesOf setting invocation.command = .error failure ∧
      Obstacle setting invocation := by
  cases command : invocation.command with
  | ask question => exact .inl ⟨_, rfl, .ask question⟩
  | batch file =>
    have text := toOption_contentOf setting file
    cases read : contentOf setting file with
    | error failure =>
      right
      rw [read] at text
      refine ⟨failure, ?_, .unreadable command text.symm⟩
      simp only [queriesOf, read]
      rfl
    | ok content =>
      rw [read] at text
      cases given : Query.batch content with
      | ok queries =>
        left
        refine ⟨queries, ?_, .batch text.symm (Query.batch_eq_ok_iff.mp given)⟩
        simp only [queriesOf, read, bind, Except.bind, given, Except.mapError]
      | error bad =>
        right
        obtain ⟨line, member, none⟩ := Query.exists_batch_eq_error_iff.mp ⟨bad, given⟩
        refine ⟨.badQuery bad, ?_, .badLine command text.symm member none⟩
        simp only [queriesOf, read, bind, Except.bind, given, Except.mapError]

/-! ### The outcome -/

/-- Where nothing fails there is no obstacle. -/
theorem not_obstacle {queries : List Query} (on : isSwitchedOn setting.switch = true)
    (some : rootsOf setting invocation ≠ []) (has : HasRepository setting invocation)
    (asked : Asked setting invocation.command queries) : ¬ Obstacle setting invocation := by
  intro obstacle
  cases obstacle with
  | switchedOff given off =>
    rw [isSwitchedOn_eq_false_iff.mpr ⟨_, given, off⟩] at on
    cases on
  | noRepository needed none =>
    obtain ⟨path, chosen, directory⟩ := has needed
    rw [none path chosen] at directory
    cases directory
  | noRoots none => exact some none
  | unreadable command none =>
    rw [command] at asked
    cases asked with
    | batch read _ =>
      rw [none] at read
      cases read
  | badLine command read member none =>
    rw [command] at asked
    cases asked with
    | batch again reads =>
      rw [read] at again
      cases again
      obtain ⟨query, reads⟩ := Query.exists_reads_of_mem reads member
      exact none query reads

/-- There are the class path and the queries of the command, or an obstacle. -/
theorem prepare_cases :
    (∃ queries, prepare setting invocation = .ok (⟨rootsOf setting invocation⟩, queries) ∧
      Asked setting invocation.command queries ∧ ¬ Obstacle setting invocation) ∨
    ∃ failure, prepare setting invocation = .error failure ∧ Obstacle setting invocation := by
  cases on : isSwitchedOn setting.switch with
  | false =>
    right
    obtain ⟨value, given, off⟩ := isSwitchedOn_eq_false_iff.mp on
    refine ⟨.switchedOff, ?_, .switchedOff given off⟩
    rw [prepare, on]
    rfl
  | true =>
    rcases classpathOf_cases setting invocation with
      ⟨found, some, has⟩ | ⟨failure, failed, obstacle⟩
    · rcases queriesOf_cases setting invocation with
        ⟨queries, given, asked⟩ | ⟨failure, failed, obstacle⟩
      · left
        refine ⟨queries, ?_, asked, not_obstacle setting invocation on some has asked⟩
        rw [prepare, on, found, given]
        rfl
      · right
        refine ⟨failure, ?_, obstacle⟩
        rw [prepare, on, found, failed]
        rfl
    · right
      refine ⟨failure, ?_, obstacle⟩
      rw [prepare, on, failed]
      rfl

/-- Nothing comes out but a message on the standard error, and the code is one. -/
def Outcome.IsMessage (outcome : Outcome) : Prop :=
  ∃ message, ∀ milliseconds, outcome.result milliseconds = { code := 1, errors := message }

/-- One report is printed and the code is zero. The report has a result for every query of the command
in its place, which is what the facts of the tree say to it. -/
def Outcome.IsReport (setting : Setting) (invocation : Invocation) (outcome : Outcome) : Prop :=
  ∃ (queries : List Query) (report : Report) (log : List String),
    Asked setting invocation.command queries ∧
    List.Forall₂ (Report.Fulfils (View.factOf (seen setting.disk ⟨rootsOf setting invocation⟩)))
      queries report.results ∧
    ∀ milliseconds, outcome.result milliseconds =
      { code := 0, output := printed invocation.format { report with milliseconds }, log }

/-- The program ends with a message if there is an obstacle, and otherwise with a report. -/
theorem exists_run (accepted : parse setting.words = .ok invocation) :
    ∃ outcome, run setting = some outcome ∧
      ((Obstacle setting invocation ∧ outcome.IsMessage) ∨
        (¬ Obstacle setting invocation ∧ outcome.IsReport setting invocation)) := by
  have performed : run setting = perform setting invocation := by rw [run, accepted]
  rw [performed]
  rcases prepare_cases setting invocation with
    ⟨queries, prepared, asked, clear⟩ | ⟨failure, prepared, obstacle⟩
  · obtain ⟨results, after, answered, fulfilled⟩ := Report.exists_answerAll
      (settled_start setting.disk (seen setting.disk ⟨rootsOf setting invocation⟩) _) queries
    refine ⟨.answered invocation.format
      (.ofSession ⟨rootsOf setting invocation⟩ (results, after))
      (logOf invocation.logLevel (Report.noticesOf after)), ?_, ?_⟩
    · rw [perform, prepared]
      simp only [Report.session, answered]
      rfl
    · right
      exact ⟨clear, queries, _, _, asked, fulfilled, fun _ => rfl⟩
  · refine ⟨.plain { code := 1, errors := failure.text }, ?_, ?_⟩
    · rw [perform, prepared]
    · left
      exact ⟨obstacle, failure.text, fun _ => rfl⟩

/-- Two settings are the same but for the trees, and these are the same where the repository and the
batch are. -/
structure Alike (setting other : Setting) (invocation : Invocation) : Prop where
  /-- The words are the same. -/
  words : setting.words = other.words
  /-- The program is switched off in both or in neither. -/
  switch : setting.switch = other.switch
  /-- The home directory is the same. -/
  home : setting.home = other.home
  /-- The repository is a directory in both or in neither, and has the same source archives. -/
  repository : ∀ path, chosenRepository? setting invocation = some path →
    setting.disk.isDirectory path = other.disk.isDirectory path ∧
      setting.disk.sourceJars path = other.disk.sourceJars path
  /-- The batch has the same text. -/
  text : ∀ file, invocation.command = .batch file → batchText? setting file = batchText? other file

namespace Alike

variable {setting other : Setting} {invocation : Invocation}

theorem chosenRepository?_eq (alike : Alike setting other invocation) :
    chosenRepository? setting invocation = chosenRepository? other invocation := by
  rw [chosenRepository?, chosenRepository?, alike.home]

theorem symm (alike : Alike setting other invocation) : Alike other setting invocation where
  words := alike.words.symm
  switch := alike.switch.symm
  home := alike.home.symm
  repository path chosen := by
    obtain ⟨directory, jars⟩ := alike.repository path (alike.chosenRepository?_eq.trans chosen)
    exact ⟨directory.symm, jars.symm⟩
  text file command := (alike.text file command).symm

theorem rootsOf_eq (alike : Alike setting other invocation) :
    rootsOf setting invocation = rootsOf other invocation := by
  rw [rootsOf, rootsOf, ← alike.chosenRepository?_eq]
  cases found : chosenRepository? setting invocation with
  | none => rfl
  | some path => rw [Option.elim_some, Option.elim_some, (alike.repository path found).2]

theorem obstacle (alike : Alike setting other invocation) (obstacle : Obstacle setting invocation) :
    Obstacle other invocation := by
  cases obstacle with
  | switchedOff given off => exact .switchedOff (alike.switch ▸ given) off
  | noRepository needed none =>
    refine .noRepository needed ?_
    intro path same
    have chosen := alike.chosenRepository?_eq.trans same
    rw [← (alike.repository path chosen).1]
    exact none path chosen
  | noRoots none => exact .noRoots (alike.rootsOf_eq ▸ none)
  | unreadable command none => exact .unreadable command (alike.text _ command ▸ none)
  | badLine command read member none =>
    exact .badLine command (alike.text _ command ▸ read) member none

end Alike

/-- A question about a root that is not there. -/
def lost : Setting where
  words := ["-s", "nowhere", "supertype", "T"]

end TypeLineage.CommandLine
