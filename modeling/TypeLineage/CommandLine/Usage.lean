import TypeLineage.CommandLine.Help

/-!
# Refused command lines

Why a command line is refused, and what is said about it. A command line that says nothing at all
is answered with the help.
-/

namespace TypeLineage.CommandLine

/-- Why a command line is refused. -/
inductive UsageError where
  /-- An option or argument has no value, or an empty one where something has to be named. -/
  | missingValue (shown : String)
  /-- An option has a value that is none of those possible. -/
  | badValue (value : String) (flag : Flag)
  /-- An option is given twice, of those that may be given once. -/
  | repeated (flag : Flag)
  /-- An option is given a value, of those that have none. -/
  | superfluousValue (value : String) (flag : Flag)
  /-- There is no such option, or there are too many arguments. -/
  | unknownArgument (argument : String)
  /-- There is no such command. -/
  | unknownCommand (name : String)
  /-- Arguments of the command are missing. -/
  | missingArguments (verb : Verb) (missing : List String)
  /-- There are options but no command. -/
  | missingCommand
  /-- There is nothing. -/
  | nothingGiven
  deriving DecidableEq, Repr

namespace UsageError

/-- What is wrong, with the details on further lines. -/
def message : UsageError → String
  | .missingValue shown => "a value is required for '" ++ shown ++ "' but none was supplied"
  | .badValue value flag => "invalid value '" ++ value ++ "' for '" ++ flag.shown ++ "'"
  | .repeated flag => "the argument '" ++ flag.shown ++ "' cannot be used multiple times"
  | .superfluousValue value flag =>
    "unexpected value '" ++ value ++ "' for '" ++ flag.shown ++ "' found; no more were expected"
  | .unknownArgument argument => "unexpected argument '" ++ argument ++ "' found"
  | .unknownCommand name => "unrecognized subcommand '" ++ name ++ "'"
  | .missingArguments _ missing =>
    "the following required arguments were not provided:" ++
      String.join (missing.map fun argument => "\n  " ++ argumentName argument)
  | .missingCommand => "'" ++ programName ++ "' requires a subcommand but one was not provided"
  | .nothingGiven => about

/-- All that is printed. -/
def text (error : UsageError) : String :=
  match error with
  | .nothingGiven => helpText .program
  | .missingArguments verb _ =>
    "error: " ++ error.message ++ "\n\n" ++ usage (.verb verb) ++
      "\n\nFor more information, try '--help'.\n"
  | _ => "error: " ++ error.message ++ "\n\nFor more information, try '--help'.\n"

end UsageError

end TypeLineage.CommandLine
