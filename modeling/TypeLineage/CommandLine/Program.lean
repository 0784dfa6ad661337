import TypeLineage.CommandLine.Parse
import TypeLineage.Files.SourceJars
import TypeLineage.Query.Decode
import TypeLineage.Query.Report

/-!
# The program

What the program prints and how it ends, as a function of what it finds: its words, two variables of
the environment, the file tree and the standard input. Either there is one report with a result for
every query, or nothing but a message: what is wrong with the setting counts, what is wrong with a
type or a root does not.
-/

namespace TypeLineage.CommandLine

/-- The variable that can switch the program off. -/
def switchName : String := "CLASS_HIERARCHY_ENGINE"

/-- The values of the variable that switch the program off. -/
def offValues : List String :=
  ["0", "false", "off", "no"]

/-- Whether the program is switched on, given the variable. Blanks around its value and the
difference between capital and small English letters do not matter. -/
def isSwitchedOn (value? : Option String) : Bool :=
  match value? with
  | none => true
  | some value => String.ofList ((Text.trim value.toList).map Char.toLower) ∉ offValues

/-- What a program finds when it is started. -/
structure Setting where
  /-- The words behind the program's name. -/
  words : List String
  /-- The variable that can switch the program off. -/
  switch : Option String := none
  /-- The home directory. -/
  home : Option String := none
  /-- The file tree. -/
  disk : Files.Disk := {}
  /-- What can be read from the standard input. -/
  input : ByteArray := .empty

/-- Why there is no report. -/
inductive Failure where
  /-- The program is switched off. -/
  | switchedOff
  /-- The repository is to be found below the home directory, but there is none. -/
  | noHome
  /-- The repository is no directory. -/
  | badRepository (fault : Files.NotDirectory)
  /-- There are no roots. -/
  | noRoots
  /-- The queries cannot be read from the standard input. -/
  | badInput (fault : Files.Fault)
  /-- The queries cannot be read from a file. -/
  | badFile (path : Files.Path) (fault : Files.Fault)
  /-- A line is no query. -/
  | badQuery (line : Query.BadLine)
  deriving Repr

namespace Failure

/-- What is said of a failure. -/
def message : Failure → String
  | .switchedOff => "Type hierarchy engine is disabled by " ++ switchName
  | .noHome => "Failed to resolve home directory"
  | .badRepository fault => "Failed to scan Maven repository: " ++ fault.path.text
  | .noRoots => "No source roots given. Use --source <PATH> or --m2-sources"
  | .badInput _ => "Failed to read queries from stdin"
  | .badFile path _ => "Failed to read queries: " ++ path.text
  | .badQuery line => "Invalid query on line " ++ toString line.number ++ ": " ++ line.line

/-- What is said of the cause, if there is a further one. -/
def cause? : Failure → Option String
  | .switchedOff => none
  | .noHome => none
  | .badRepository fault => some fault.message
  | .noRoots => none
  | .badInput fault => some fault.message
  | .badFile _ fault => some fault.message
  | .badQuery line => some line.fault.message

/-- All that is printed; the lines of the cause are set off. -/
def text (failure : Failure) : String :=
  let cause :=
    match failure.cause? with
    | none => ""
    | some cause =>
      "\n\nCaused by:" ++ String.join ((Text.splitOn '\n' cause.toList).map fun line =>
        "\n    " ++ String.ofList line)
  "Error: " ++ failure.message ++ cause ++ "\n"

end Failure

/-- The repository below a home directory. -/
def repositoryBelow (home : String) : Files.Path :=
  ((Files.Path.mk home).join ⟨".m2"⟩).join ⟨"repository"⟩

/-- The repository of an invocation. -/
def repositoryOf (invocation : Invocation) (home : Option String) : Except Failure Files.Path :=
  match invocation.repository, home with
  | some path, _ => return path
  | none, some home => if home.isEmpty then throw .noHome else return repositoryBelow home
  | none, none => throw .noHome

/-- The class path of an invocation: the given roots, then the source archives of the repository if
they are asked for. -/
def classpathOf (invocation : Invocation) (home : Option String) (disk : Files.Disk) :
    Except Failure Classpath := do
  let jars ←
    if invocation.repositorySources then
      let repository ← repositoryOf invocation home
      (disk.findSourceJars repository).mapError .badRepository
    else pure []
  let roots := invocation.sources ++ jars
  if roots.isEmpty then throw .noRoots else return { roots }

/-- The name of the file that stands for the standard input. -/
def inputName : String := "-"

/-- The text of the queries of a file. -/
def contentOf (setting : Setting) (file : Files.Path) : Except Failure String :=
  if file.text = inputName then
    match String.fromUTF8? setting.input with
    | some text => return text
    | none => throw (.badInput .notText)
  else (setting.disk.readText file).mapError (.badFile file)

/-- The queries of a command. -/
def queriesOf (setting : Setting) : Command → Except Failure (List Query)
  | .ask question => return [{ question }]
  | .batch file => do
    let content ← contentOf setting file
    (Query.batch content).mapError .badQuery

/-- The class path and the queries of an invocation, if nothing is wrong with the setting. -/
def prepare (setting : Setting) (invocation : Invocation) :
    Except Failure (Classpath × List Query) := do
  if !isSwitchedOn setting.switch then throw .switchedOff
  let classpath ← classpathOf invocation setting.home setting.disk
  let queries ← queriesOf setting invocation.command
  return (classpath, queries)

/-- A report as it is printed, with a line feed at the end. -/
def printed (format : Format) (report : Report) : String :=
  let text :=
    match format with
    | .json => report.json.pretty
    | .text => report.text
  if text.toList.getLast? = some '\n' then text else text ++ "\n"

/-- What a program prints and how it ends. -/
structure Result where
  /-- The code that tells whether it went well. -/
  code : Nat
  /-- What is printed on the standard output. -/
  output : String := ""
  /-- What is printed on the standard error. -/
  errors : String := ""
  /-- The lines of the log. -/
  log : List String := []
  deriving DecidableEq, Repr

/-- What comes out of a program before it is known how long the answers took. -/
inductive Outcome where
  /-- There is no report. -/
  | plain (result : Result)
  /-- There is a report, to be printed in a format, and a log. -/
  | answered (format : Format) (report : Report) (log : List String)
  deriving DecidableEq, Repr

/-- The result of an outcome when answering took so many milliseconds. -/
def Outcome.result (milliseconds : Nat) : Outcome → Result
  | .plain result => result
  | .answered format report log =>
    { code := 0, output := printed format { report with milliseconds }, log }

/-- The lines that a level lets through. -/
def logOf (level : LogLevel) (notices : List Notice) : List String :=
  (notices.filter fun notice => level.admits notice.level).map Notice.line

/-- The outcome of an invocation, if the answers come. -/
def perform (setting : Setting) (invocation : Invocation) : Option Outcome :=
  match prepare setting invocation with
  | .error failure => some (.plain { code := 1, errors := failure.text })
  | .ok (classpath, queries) => do
    let session ← Report.session setting.disk classpath queries
    return .answered invocation.format (.ofSession classpath session)
      (logOf invocation.logLevel (Report.noticesOf session.2))

/-- The outcome of the program, if it ends. -/
def run (setting : Setting) : Option Outcome :=
  match parse setting.words with
  | .error (.help topic) => some (.plain { code := 0, output := helpText topic })
  | .error (.refused error) => some (.plain { code := 2, errors := error.text })
  | .ok invocation => perform setting invocation

end TypeLineage.CommandLine
