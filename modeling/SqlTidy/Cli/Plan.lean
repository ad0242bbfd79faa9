import SqlTidy.Cli.Help
import SqlTidy.Text.Distance
import SqlTidy.Text.LowerCase

/-! From the arguments of the program to what it is to do. -/
namespace SqlTidy.Cli
open Ascii

/-- Whether an argument looks like a flag whose value is the next argument: one that is no
known switch and has no equals sign. -/
def takesNext (switches : List Flag) (argument : Bytes) : Bool :=
  !argument.contains equals && match argument with
    | 0x2D :: 0x2D :: name => !switches.any fun flag => utf8 flag.name == name
    | [0x2D, _] => true
    | _ => false

/-- The arguments that are words: no flags, and no values of flags. A flag that takes the
last argument ends the search. -/
def words (switches : List Flag) : List Bytes → List Bytes
  | [] => []
  | argument :: rest =>
    if argument == [dash, dash] then []
    else if takesNext switches argument then
      match rest with
      | _ :: next :: more => words switches (next :: more)
      | _ => []
    else if argument.isEmpty || argument.head? == some dash then words switches rest
    else argument :: words switches rest

def without (switches : List Flag) (word : Bytes) : List Bytes → List Bytes
  | [] => []
  | argument :: rest =>
    if argument == [dash, dash] then argument :: rest
    else if takesNext switches argument then
      match rest with
      | value :: more => argument :: value :: without switches word more
      | [] => [argument]
    else if argument == word && argument.head? != some dash then rest
    else argument :: without switches word rest

def locate (arguments : List Bytes) : Except Bytes (Topic × List Bytes) :=
  match words [] arguments with
  | [] => .ok (.root, arguments)
  | word :: _ =>
    match Topic.ofName? word with
    | some topic => .ok (topic, without [] word arguments)
    | none => .error word

def suggestions (word : Bytes) : List Bytes :=
  let candidates := (listed.map (·.1)).filter (· != "help")
  (candidates.map utf8).filter fun name =>
    Distance.distance (lower word) name ≤ 2 || (lower word).isPrefixOf name

inductive Input where
  | standard
  | file (path : Bytes)
deriving Repr, DecidableEq

inductive Refusal where
  | unknownCommand (word : Bytes)
  | flags (fault : FlagFault)
  | tooManyArguments (count : Nat)
deriving Repr, DecidableEq

def Refusal.message : Refusal → Bytes
  | unknownCommand word =>
    let names := suggestions word
    utf8 "unknown command " ++ quoted word ++ utf8 " for \"sqltext\"" ++
      if names.isEmpty then []
      else utf8 "\n\nDid you mean this?\n" ++ names.flatMap fun name => tab :: name ++ [newline]
  | flags fault => fault.message
  | tooManyArguments count => utf8 "accepts at most 1 arg(s), received " ++ Bytes.ofNat count

inductive Plan where
  | explain (text : Bytes)
  | refuse (refusal : Refusal)
  | transform (command : Command) (options : Options) (input : Input)

def helpOn (words : List Bytes) : Bytes :=
  match locate words with
  | .ok (topic, _) => topic.text
  | .error _ => unknownTopic words

def inputOf : List Bytes → Except Refusal Input
  | [] => .ok .standard
  | [word] => .ok (if word == [dash] then .standard else .file word)
  | words => .error (.tooManyArguments words.length)

def planFor (topic : Topic) (given : Given) : Plan :=
  if given.isOn "help" then .explain topic.text
  else
    match topic with
    | .root => .explain topic.text
    | .help => .explain (helpOn given.words)
    | .command command =>
      match inputOf given.words with
      | .ok input => .transform command given.options input
      | .error refusal => .refuse refusal

def plan (arguments : List Bytes) : Plan :=
  match locate arguments with
  | .error word => .refuse (.unknownCommand word)
  | .ok (topic, rest) =>
    match readFlags topic.flags none {} rest with
    | .error fault => .refuse (.flags fault)
    | .ok given => planFor topic given

end SqlTidy.Cli
