import SqlTidy.Cli.Command
import SqlTidy.Text.Quoted

/-! Reading the flags among the arguments of a command. -/
namespace SqlTidy.Cli
open Ascii

inductive FlagFault where
  | unknown (name : Bytes)
  | unknownShort (letter : UInt8) (letters : Bytes)
  | needsArgument (name : String)
  | malformed (argument : Bytes)
  | invalidValue (value : Bytes) (flag : Flag)
deriving Repr, DecidableEq

def Flag.label (flag : Flag) : Bytes :=
  match flag.short with
  | some letter => utf8 "-" ++ String.utf8EncodeChar letter ++ utf8 ", --" ++ utf8 flag.name
  | none => utf8 "--" ++ utf8 flag.name

def FlagFault.message : FlagFault → Bytes
  | unknown name => utf8 "unknown flag: --" ++ name
  | unknownShort letter letters =>
    utf8 "unknown shorthand flag: " ++ quotedChar (Char.ofNat letter.toNat) ++ utf8 " in -" ++ letters
  | needsArgument name => utf8 "flag needs an argument: --" ++ utf8 name
  | malformed argument => utf8 "bad flag syntax: " ++ argument
  | invalidValue value flag =>
    utf8 "invalid argument " ++ quoted value ++ utf8 " for " ++ quoted flag.label ++
      utf8 " flag: strconv.ParseBool: parsing " ++ quoted value ++ utf8 ": invalid syntax"

/-- What the arguments gave: the switches, the latest first, and the words that are no
flags. -/
structure Given where
  switches : List (String × Bool) := []
  words : List Bytes := []
deriving Repr, DecidableEq

namespace Given

def isOn (given : Given) (name : String) : Bool := (given.switches.lookup name).getD false

def turn (given : Given) (flag : Flag) (value : Bool) : Given :=
  { given with switches := (flag.name, value) :: given.switches }

def withWords (given : Given) (words : List Bytes) : Given := { given with words := given.words ++ words }

def options (given : Given) : Options where
  extract := given.isOn "extract"
  removeLimit := given.isOn "remove-limit"
  addQuotes := given.isOn "quote"

end Given

def truth? (text : Bytes) : Option Bool :=
  if ["1", "t", "T", "TRUE", "true", "True"].any fun word => utf8 word == text then some true
  else if ["0", "f", "F", "FALSE", "false", "False"].any fun word => utf8 word == text then some false
  else none

def turnTo (given : Given) (flag : Flag) (value : Bytes) : Except FlagFault Given :=
  match truth? value with
  | some on => .ok (given.turn flag on)
  | none => .error (.invalidValue value flag)

def readLong (flags : List Flag) (given : Given) (argument : Bytes) : Except FlagFault (Option Flag × Given) :=
  let text := argument.drop 2
  if text.head? == some dash || text.head? == some equals then .error (.malformed argument)
  else
    let name := text.takeWhile (· != equals)
    match flags.find? fun flag => utf8 flag.name == name with
    | none => .error (.unknown name)
    | some flag =>
      match text.dropWhile (· != equals) with
      | [] => .ok (if flag.takesValue then (some flag, given) else (none, given.turn flag true))
      | _ :: value =>
        if flag.takesValue then .ok (none, given) else (turnTo given flag value).map (none, ·)

/-- Reads the letters of an argument that starts with one dash; each is a switch. A value
may follow the last one after an equals sign. -/
def readShort (flags : List Flag) (given : Given) : Bytes → Except FlagFault Given
  | [] => .ok given
  | letter :: rest =>
    match flags.find? fun flag => flag.short.any (·.toNat == letter.toNat) with
    | none => .error (.unknownShort letter (letter :: rest))
    | some flag =>
      match rest with
      | 0x3D :: b :: value => turnTo given flag (b :: value)
      | _ => readShort flags (given.turn flag true) rest

/-- Reads arguments. `waiting` is a flag whose value comes next; two dashes end the flags;
a single dash is a word. -/
def readFlags (flags : List Flag) : (waiting : Option Flag) → Given → List Bytes → Except FlagFault Given
  | none, given, [] => .ok given
  | some flag, _, [] => .error (.needsArgument flag.name)
  | some _, given, _ :: rest => readFlags flags none given rest
  | none, given, argument :: rest =>
    match argument with
    | [0x2D, 0x2D] => .ok (given.withWords rest)
    | 0x2D :: 0x2D :: _ =>
      match readLong flags given argument with
      | .error fault => .error fault
      | .ok (waiting, given) => readFlags flags waiting given rest
    | 0x2D :: b :: letters =>
      match readShort flags given (b :: letters) with
      | .error fault => .error fault
      | .ok given => readFlags flags none given rest
    | _ => readFlags flags none (given.withWords [argument]) rest

end SqlTidy.Cli
