import TypeLineage.Engine.Run
import TypeLineage.Files.Path
import TypeLineage.Log

/-!
# What can be said on the command line

The commands with their arguments, and the options, which may stand before the command or behind it.
What is written here is both what is accepted and what the help tells.
-/

namespace TypeLineage.CommandLine

/-- The name of the program. -/
def programName : String := "class-hierarchy"

/-- What the program does. -/
def about : String :=
  "Answer superclass and interface questions about Java types from their sources"

/-- How a report is written. -/
inductive Format where
  /-- As a JSON value. -/
  | json
  /-- As lines of text. -/
  | text
  deriving DecidableEq, Repr

namespace Format

/-- All formats. -/
def all : List Format :=
  [.json, .text]

/-- The name of a format. -/
def name : Format → String
  | .json => "json"
  | .text => "text"

end Format

/-- The options. -/
inductive Flag where
  /-- One more root. -/
  | source
  /-- The repository with source archives. -/
  | repository
  /-- To take all source archives of the repository as roots. -/
  | repositorySources
  /-- The format of the report. -/
  | format
  /-- How much is logged. -/
  | logLevel
  /-- To print the help. -/
  | help
  deriving DecidableEq, Repr

namespace Flag

/-- All options in the order of the help. -/
def all : List Flag :=
  [.source, .repository, .repositorySources, .format, .logLevel, .help]

/-- The name behind two dashes. -/
def long : Flag → String
  | .source => "source"
  | .repository => "m2"
  | .repositorySources => "m2-sources"
  | .format => "format"
  | .logLevel => "log-level"
  | .help => "help"

/-- The letter behind one dash. -/
def short? : Flag → Option Char
  | .source => some 's'
  | .format => some 'f'
  | .help => some 'h'
  | _ => none

/-- What stands for the value in the help, if the option has a value. -/
def valueName? : Flag → Option String
  | .source => some "PATH"
  | .repository => some "PATH"
  | .format => some "FORMAT"
  | .logLevel => some "LOG_LEVEL"
  | _ => none

/-- What the option does. -/
def about : Flag → String
  | .source => "Source directory or source archive, searched in the given order"
  | .repository => ""
  | .repositorySources => "Append every `*-sources.jar` from the Maven repository"
  | .format => "[default: json] [possible values: json, text]"
  | .logLevel => "[default: warn] [possible values: trace, debug, info, warn, error]"
  | .help => "Print help"

/-- The option as it is called in messages. -/
def shown (flag : Flag) : String :=
  match flag.valueName? with
  | none => "--" ++ flag.long
  | some value => "--" ++ flag.long ++ " <" ++ value ++ ">"

/-- The option of a name. -/
def ofLong? (name : String) : Option Flag :=
  all.find? fun flag => flag.long == name

/-- The option of a letter. -/
def ofShort? (letter : Char) : Option Flag :=
  all.find? fun flag => flag.short? == some letter

end Flag

/-- The commands. -/
inductive Verb where
  /-- To ask for the superclass of a type. -/
  | supertype
  /-- To ask for the interfaces that a type declares. -/
  | interfaces
  /-- To ask whether a type extends a class. -/
  | extends
  /-- To ask whether a type implements an interface. -/
  | implements
  /-- To answer the queries of a file. -/
  | batch
  /-- To print the help of the program or of a command. -/
  | help
  deriving DecidableEq, Repr

namespace Verb

/-- All commands in the order of the help. -/
def all : List Verb :=
  [.supertype, .interfaces, .extends, .implements, .batch, .help]

/-- The name of a command. -/
def name : Verb → String
  | .supertype => "supertype"
  | .interfaces => "interfaces"
  | .extends => "extends"
  | .implements => "implements"
  | .batch => "batch"
  | .help => "help"

/-- What a command does. -/
def about : Verb → String
  | .batch => "Answer JSON-lines queries from a file (`-` for stdin) with one engine"
  | .help => "Print this message or the help of the given subcommand(s)"
  | _ => ""

/-- The arguments of a command. -/
def arguments : Verb → List String
  | .supertype => ["TYPE_NAME"]
  | .interfaces => ["TYPE_NAME"]
  | .extends => ["TYPE_NAME", "SUPER_NAME"]
  | .implements => ["TYPE_NAME", "INTERFACE_NAME"]
  | .batch => ["FILE"]
  | .help => []

/-- The command of a name. -/
def ofName? (name : String) : Option Verb :=
  all.find? fun verb => verb.name == name

end Verb

/-- A command with its arguments. -/
inductive Command where
  /-- To answer a question. -/
  | ask (question : Engine.Question)
  /-- To answer the queries of a file; a dash stands for the standard input. -/
  | batch (file : Files.Path)
  deriving DecidableEq, Repr

/-- An accepted command line. -/
structure Invocation where
  /-- What is to be done. -/
  command : Command
  /-- The roots in their order. -/
  sources : List Files.Path := []
  /-- The repository. -/
  repository : Option Files.Path := none
  /-- Whether the source archives of the repository are roots too. -/
  repositorySources : Bool := false
  /-- The format of the report. -/
  format : Format := .json
  /-- How much is logged. -/
  logLevel : LogLevel := .warn
  deriving DecidableEq, Repr

end TypeLineage.CommandLine
