import TypeLineage.CommandLine.Spec
import TypeLineage.Text.Split

/-!
# Help texts

The help tells what a command does, how it is used, and which arguments, commands and options there
are. Names stand in a column that is as wide as the longest of them.
-/

namespace TypeLineage.CommandLine

/-- What the help is about. -/
inductive Topic where
  /-- The program. -/
  | program
  /-- A command. -/
  | verb (verb : Verb)
  deriving DecidableEq, Repr

/-- Rows of a name and what it does, in columns. -/
def table (rows : List (String × String)) : String :=
  let width := (rows.map fun row => row.1.length).foldl max 0
  String.join (rows.map fun (name, about) =>
    "  " ++ name ++ String.ofList (List.replicate (width - name.length) ' ') ++ "  " ++ about ++ "\n")

/-- The name of an option in the help. -/
def optionName (flag : Flag) : String :=
  match flag.short? with
  | some letter => "-" ++ String.singleton letter ++ ", " ++ flag.shown
  | none => "    " ++ flag.shown

/-- The options. -/
def optionTable : String :=
  "\nOptions:\n" ++ table (Flag.all.map fun flag => (optionName flag, flag.about))

/-- What a text starts with if there is something to say. -/
def introduction (about : String) : String :=
  if about.isEmpty then "" else about ++ "\n\n"

/-- An argument as it is called in messages. -/
def argumentName (argument : String) : String :=
  "<" ++ argument ++ ">"

/-- How a command is used. -/
def usage : Topic → String
  | .program => "Usage: " ++ programName ++ " [OPTIONS] <COMMAND>"
  | .verb .help => "Usage: " ++ programName ++ " help [COMMAND]..."
  | .verb verb =>
    "Usage: " ++ programName ++ " " ++ verb.name ++ " [OPTIONS]" ++
      String.join (verb.arguments.map fun argument => " " ++ argumentName argument)

/-- The help on a topic. -/
def helpText (topic : Topic) : String :=
  match topic with
  | .program =>
    introduction about ++ usage topic ++ "\n\nCommands:\n" ++
      table (Verb.all.map fun verb => (verb.name, verb.about)) ++ optionTable
  | .verb .help =>
    introduction Verb.help.about ++ usage topic ++ "\n\nArguments:\n" ++
      table [("[COMMAND]...", "Print help for the subcommand(s)")]
  | .verb verb =>
    introduction verb.about ++ usage topic ++ "\n\nArguments:\n" ++
      table (verb.arguments.map fun argument => (argumentName argument, "")) ++ optionTable

end TypeLineage.CommandLine
