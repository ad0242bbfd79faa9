import SqlTidy.Cli.Flags

/-! The texts that explain the program and its commands. -/
namespace SqlTidy.Cli

def padded (width : Nat) (text : String) : String := text ++ String.ofList (List.replicate (width - text.length) ' ')

def lines (rows : List String) : String := String.join (rows.map (· ++ "\n"))

def Flag.column (flag : Flag) : String :=
  let letter := match flag.short with
    | some letter => "  -" ++ String.singleton letter ++ ", "
    | none => "      "
  letter ++ "--" ++ flag.name ++ (if flag.takesValue then " string" else "")

def flagTable (flags : List Flag) : String :=
  let width := (flags.map fun flag => flag.column.length).foldl max 0 + 3
  lines (flags.map fun flag => padded width flag.column ++ flag.usage)

def listed : List (String × String) := [
  ("add-quotes", Command.addQuotes.summary),
  ("clean", Command.clean.summary),
  ("completion", "Generate the autocompletion script for the specified shell"),
  ("help", "Help about any command"),
  ("remove-limit", Command.removeLimit.summary),
  ("sanitize", Command.sanitize.summary)]

namespace Topic

def description : Topic → String
  | root => "sqltext applies the same transforms the analytics service runs on
generated SQL: stripping code fences and quote runs, removing a trailing
LIMIT clause, and converting backtick identifiers to double quotes.

Each command reads FILE, or standard input when FILE is omitted or \"-\",
and writes the result to standard output."
  | help => "Help provides help for any command in the application.
Simply type sqltext help [path to command] for full details."
  | command .sanitize => "sanitize cleans model output and optionally extracts the fenced SQL
block first, removes a trailing LIMIT clause and converts backtick quotes."
  | command c => c.summary

def localFlags (topic : Topic) : List Flag :=
  (topic.helpFlag :: topic.switches).mergeSort fun a b => a.name ≤ b.name

def rootUsage (withHelp : Bool) : String :=
  "Usage:\n  sqltext [command]\n\nAvailable Commands:\n" ++
    lines (listed.map fun (name, summary) => "  " ++ padded 12 name ++ " " ++ summary) ++
    "\nFlags:\n" ++ flagTable (if withHelp then [root.helpFlag, logLevelFlag] else [logLevelFlag]) ++
    "\nUse \"sqltext [command] --help\" for more information about a command.\n"

def usage (topic : Topic) : String :=
  let parts (arguments : String) : String :=
    "Usage:\n  sqltext " ++ topic.name ++ " " ++ arguments ++ " [flags]\n\nFlags:\n" ++
      flagTable topic.localFlags ++ "\nGlobal Flags:\n" ++ flagTable [logLevelFlag]
  match topic with
  | root => rootUsage true
  | help => parts "[command]"
  | command _ => parts "[FILE]"

def text (topic : Topic) : Bytes := utf8 (topic.description ++ "\n\n" ++ topic.usage)

end Topic

def unknownTopic (words : List Bytes) : Bytes :=
  utf8 "Unknown help topic [" ++ Bytes.join [Ascii.space] (words.map backticked) ++ utf8 "]\n" ++
    utf8 (Topic.rootUsage false)

end SqlTidy.Cli
