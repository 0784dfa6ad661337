import TypeLineage.CommandLine.Usage
import TypeLineage.Text.Split

/-!
# Reading the command line

The words of a command line are read from left to right on two levels: before the command and behind
it. Options may stand on both; what is said of an option behind the command replaces what is said of
it before.

## The model

A value is not looked at when it is read, but when the next thing comes that could follow it. So a
`Level` keeps one `pending` value, and of two mistakes the one that is noticed first counts: a word
that is no option is noticed at once, a bad value before it is not. Two dashes end the options; what
comes behind is an argument.
-/

namespace TypeLineage.CommandLine

/-- Why the reading ends without a command to perform. -/
inductive Stop where
  /-- The help is asked for. -/
  | help (topic : Topic)
  /-- The command line is refused. -/
  | refused (error : UsageError)
  deriving DecidableEq, Repr

/-- The options given on one level. -/
structure Given where
  /-- The roots in their order. -/
  sources : List Files.Path := []
  /-- The repository. -/
  repository : Option Files.Path := none
  /-- Whether the source archives of the repository are asked for. -/
  repositorySources : Bool := false
  /-- The format. -/
  format : Option Format := none
  /-- The level of the log. -/
  logLevel : Option LogLevel := none
  deriving DecidableEq, Repr

namespace Given

/-- The path of a value, which must not be empty. -/
def pathOf (shown value : String) : Except UsageError Files.Path :=
  if value.isEmpty then throw (.missingValue shown) else return ⟨value⟩

/-- Refuses an option that has been given before. -/
def refuseTwice (flag : Flag) (isGiven : Bool) : Except UsageError PUnit :=
  if isGiven then throw (.repeated flag) else return

/-- The choice that a value names. -/
def choiceOf {α : Type} (flag : Flag) (choices : List α) (name : α → String) (value : String) :
    Except UsageError α :=
  match choices.find? fun choice => name choice == value with
  | some choice => return choice
  | none => throw (if value.isEmpty then .missingValue flag.shown else .badValue value flag)

/-- The options with the value of one more. -/
def set (given : Given) (flag : Flag) (value : String) : Except UsageError Given := do
  match flag with
  | .source =>
    let path ← pathOf flag.shown value
    return { given with sources := given.sources ++ [path] }
  | .repository =>
    refuseTwice flag given.repository.isSome
    return { given with repository := some (← pathOf flag.shown value) }
  | .format =>
    refuseTwice flag given.format.isSome
    return { given with format := some (← choiceOf flag Format.all Format.name value) }
  | .logLevel =>
    refuseTwice flag given.logLevel.isSome
    return { given with logLevel := some (← choiceOf flag LogLevel.all LogLevel.name value) }
  | .repositorySources => throw (.superfluousValue value flag)
  | .help => throw (.superfluousValue value flag)

/-- What is given before the command, together with what is given behind it. -/
def under (before behind : Given) : Given where
  sources := if behind.sources.isEmpty then before.sources else behind.sources
  repository := behind.repository <|> before.repository
  repositorySources := before.repositorySources || behind.repositorySources
  format := behind.format <|> before.format
  logLevel := behind.logLevel <|> before.logLevel

/-- The accepted command line of some options and a command. -/
def invocation (given : Given) (command : Command) : Invocation where
  command := command
  sources := given.sources
  repository := given.repository
  repositorySources := given.repositorySources
  format := given.format.getD .json
  logLevel := given.logLevel.getD .warn

end Given

/-- What a value is for. -/
inductive Slot where
  /-- An option. -/
  | flag (flag : Flag)
  /-- An argument of the command. -/
  | argument (name : String)
  deriving DecidableEq, Repr

/-- How far the reading on one level has come. -/
structure Level where
  /-- The level before the command, or behind which command. -/
  topic : Topic
  /-- The options. -/
  given : Given := {}
  /-- The arguments. -/
  arguments : List String := []
  /-- What a value has been read for, or is awaited. -/
  pending : Option (Slot × Option String) := none
  /-- Whether the options have ended. -/
  optionsEnded : Bool := false
  deriving DecidableEq, Repr

namespace Level

/-- The arguments that there can be on a level. -/
def argumentNames (level : Level) : List String :=
  match level.topic with
  | .program => []
  | .verb verb => verb.arguments

/-- The argument that has to name a file. -/
def fileArgument : String := "FILE"

/-- Looks at the pending value. -/
def resolve (level : Level) : Except UsageError Level :=
  match level.pending with
  | none => return level
  | some (.flag flag, none) => throw (.missingValue flag.shown)
  | some (.flag flag, some value) => do
    return { level with given := (← level.given.set flag value), pending := none }
  | some (.argument name, value?) =>
    let value := value?.getD ""
    if name = fileArgument ∧ value.isEmpty then throw (.missingValue (argumentName name))
    else return { level with arguments := level.arguments ++ [value], pending := none }

/-- Whether the next word is the value of an option, unless it is an option itself. -/
def isAwaiting (level : Level) : Bool :=
  match level.pending with
  | some (.flag _, none) => true
  | _ => false

/-- Refuses a command line. -/
def refuse {α : Type} (error : UsageError) : Except Stop α :=
  throw (.refused error)

/-- Looks at the pending value before something else. -/
def resolved (level : Level) : Except Stop Level :=
  level.resolve.mapError .refused

/-- Reads an option that has its value with it. -/
def readWithValue (level : Level) (flag : Flag) (value : String) : Except Stop Level := do
  let level ← level.resolved
  let given ← (level.given.set flag value).mapError .refused
  return { level with given }

/-- Reads an option without a value with it: it has none, or it comes next. -/
def readAlone (level : Level) (flag : Flag) : Except Stop Level := do
  let level ← level.resolved
  match flag with
  | .help => throw (.help level.topic)
  | .repositorySources =>
    (Given.refuseTwice flag level.given.repositorySources).mapError .refused
    return { level with given := { level.given with repositorySources := true } }
  | _ => return { level with pending := some (.flag flag, none) }

/-- Reads an option by its name, and perhaps a value behind an equals sign. -/
def readLong (level : Level) (name : String) (value? : Option String) : Except Stop Level :=
  match Flag.ofLong? name, value? with
  | none, _ => refuse (.unknownArgument ("--" ++ name))
  | some flag, none => level.readAlone flag
  | some flag, some value =>
    if flag.valueName?.isSome then level.readWithValue flag value
    else refuse (.superfluousValue value flag)

/-- Reads options by their letters; behind the first that has a value comes the value. -/
def readShort (level : Level) : List Char → Except Stop Level
  | [] => return level
  | letter :: rest =>
    match Flag.ofShort? letter with
    | none => refuse (.unknownArgument ("-" ++ String.singleton letter))
    | some flag =>
      if flag.valueName?.isNone then do
        let level ← level.readAlone flag
        readShort level rest
      else
        match rest with
        | [] => level.readAlone flag
        | '=' :: value => level.readWithValue flag (String.ofList value)
        | value => level.readWithValue flag (String.ofList value)

/-- The name of the argument that comes next, if the command has any more. -/
def nextArgument? (level : Level) : Option String :=
  let isPending :=
    match level.pending with
    | some (.argument _, _) => true
    | _ => false
  level.argumentNames[level.arguments.length + if isPending then 1 else 0]?

/-- Reads a word that is no option. -/
def readPlain (level : Level) (word : String) : Except Stop Level :=
  match level.nextArgument? with
  | some name => do
    let level ← level.resolved
    return { level with pending := some (.argument name, some word) }
  | none =>
    if level.topic = .program ∧ !(level.optionsEnded && (Verb.ofName? word).isSome) then
      refuse (.unknownCommand word)
    else refuse (.unknownArgument word)

/-- Reads a word. -/
def readWord (level : Level) (word : String) : Except Stop Level :=
  if level.optionsEnded then level.readPlain word
  else
    match word.toList with
    | ['-', '-'] => return { level with optionsEnded := true }
    | '-' :: '-' :: rest =>
      let name := rest.takeWhile (· != '=')
      let value? :=
        match rest.dropWhile (· != '=') with
        | [] => none
        | _ :: value => some (String.ofList value)
      level.readLong (String.ofList name) value?
    | '-' :: letter :: rest => level.readShort (letter :: rest)
    | _ =>
      match level.pending with
      | some (.flag flag, none) => return { level with pending := some (.flag flag, some word) }
      | _ => level.readPlain word

end Level

/-- The command of a verb and its arguments, if there are enough. -/
def commandOf? : Verb → List String → Option Command
  | .supertype, type :: _ => some (.ask (.superclass type))
  | .interfaces, type :: _ => some (.ask (.interfaces type))
  | .extends, type :: target :: _ => some (.ask (.extendsClass type target))
  | .implements, type :: target :: _ => some (.ask (.implementsInterface type target))
  | .batch, file :: _ => some (.batch ⟨file⟩)
  | _, _ => none

/-- Reads what stands behind a command. -/
def readBehind (verb : Verb) (words : List String) : Except Stop (Given × Command) := do
  let level ← words.foldlM Level.readWord { topic := .verb verb }
  let level ← level.resolved
  match commandOf? verb level.arguments with
  | some command => return (level.given, command)
  | none =>
    Level.refuse (.missingArguments verb (verb.arguments.drop level.arguments.length))

/-- The help that is asked for by a command of its own. -/
def helpTopic : List String → Stop
  | [] => .help .program
  | name :: rest =>
    match Verb.ofName? name, rest with
    | none, _ => .refused (.unknownCommand name)
    | some verb, [] => .help (.verb verb)
    | some _, other :: _ => .refused (.unknownCommand other)

/-- Reads words up to the command and behind it. -/
def readBefore (level : Level) : List String → Except Stop Invocation
  | [] => do
    let level ← level.resolved
    Level.refuse (if level.given = {} then .nothingGiven else .missingCommand)
  | word :: rest =>
    match if level.optionsEnded || level.isAwaiting then none else Verb.ofName? word with
    | some .help => throw (helpTopic rest)
    | some verb => do
      let (behind, command) ← readBehind verb rest
      let level ← level.resolved
      return (level.given.under behind).invocation command
    | none => do
      let level ← level.readWord word
      readBefore level rest

/-- Reads a command line, given its words. -/
def parse (words : List String) : Except Stop Invocation :=
  readBefore { topic := .program } words

end TypeLineage.CommandLine
