import SqlTidy.Sql.Sanitize

/-! The commands of the program, and the flags that each of them knows. -/
namespace SqlTidy.Cli

def program : String := "sqltext"

inductive Command where
  | clean
  | removeLimit
  | addQuotes
  | sanitize
deriving Repr, DecidableEq

inductive Topic where
  | root
  | help
  | command (command : Command)
deriving Repr, DecidableEq

structure Flag where
  name : String
  short : Option Char := none
  takesValue : Bool := false
  usage : String
deriving Repr, DecidableEq

namespace Command

def all : List Command := [addQuotes, clean, removeLimit, sanitize]

def name : Command → String
  | clean => "clean"
  | removeLimit => "remove-limit"
  | addQuotes => "add-quotes"
  | sanitize => "sanitize"

def summary : Command → String
  | clean => "Collapse whitespace and strip code fences, triple quotes and semicolons"
  | removeLimit => "Remove a trailing LIMIT <n> clause"
  | addQuotes => "Replace backtick identifier quotes with double quotes"
  | sanitize => "Run the full post-processing pipeline on model output"

def switches : Command → List Flag
  | sanitize => [
    { name := "extract", usage := "use the fenced SQL block when the input contains one" },
    { name := "quote", usage := "replace backtick quotes with double quotes" },
    { name := "remove-limit", usage := "remove a trailing LIMIT clause" }]
  | _ => []

def apply (command : Command) (options : Options) (text : Bytes) : Bytes :=
  match command with
  | clean => SqlTidy.clean text
  | removeLimit => SqlTidy.removeLimit text
  | addQuotes => SqlTidy.addQuotes text
  | sanitize => (SqlTidy.sanitize options text).sql

end Command

def logLevelFlag : Flag where
  name := "log-level"
  takesValue := true
  usage := "log level (debug, info, warn, error) (default \"warn\")"

namespace Topic

def name : Topic → String
  | root => program
  | help => "help"
  | command c => c.name

def named : List Topic := .help :: Command.all.map .command

def ofName? (name : Bytes) : Option Topic := named.find? fun topic => utf8 topic.name == name

def switches : Topic → List Flag
  | command c => c.switches
  | _ => []

def helpFlag (topic : Topic) : Flag where
  name := "help"
  short := some 'h'
  usage := "help for " ++ topic.name

def flags (topic : Topic) : List Flag := topic.helpFlag :: logLevelFlag :: topic.switches

end Topic
end SqlTidy.Cli
