import SqlTidy.Cli.Files
import SqlTidy.Cli.Plan

/-! Carrying out a plan, and what the program reports. -/
namespace SqlTidy.Cli
open Ascii

/-- What surrounds a run: the files that can be read, standard input, and the faults of
the two streams. After its bytes standard input may fail; standard output may fail
altogether. -/
structure World where
  file : Bytes → Except PathFault Bytes := fun _ => .error .missing
  input : Bytes := []
  inputFault : Option Bytes := none
  outputFault : Option Bytes := none

inductive RunFault where
  | refused (refusal : Refusal)
  | input (reason : Bytes)
  | file (path : Bytes) (fault : PathFault)
  | output (reason : Bytes)

def RunFault.message : RunFault → Bytes
  | refused refusal => refusal.message
  | input reason => utf8 "failed to read standard input: " ++ reason
  | file path fault => utf8 "failed to read input file: " ++ fault.message path
  | output reason => reason

def RunFault.hint : RunFault → Bytes
  | refused (.unknownCommand _) => utf8 "Run 'sqltext --help' for usage.\n"
  | _ => []

structure Report where
  fault : Option RunFault
  output : Bytes

def Report.errors (report : Report) : Bytes :=
  match report.fault with
  | some fault => utf8 "Error: " ++ fault.message ++ [newline] ++ fault.hint
  | none => []

def Report.status (report : Report) : Nat := if report.fault.isSome then 1 else 0

def ended (text : Bytes) : Bytes := if text.getLast? == some newline then text else text ++ [newline]

namespace World

def read (world : World) : Input → Except RunFault Bytes
  | .standard =>
    match world.inputFault with
    | some reason => .error (.input reason)
    | none => .ok world.input
  | .file path =>
    match world.file path with
    | .ok text => .ok text
    | .error fault => .error (.file path fault)

def write (world : World) (text : Bytes) : Report :=
  match world.outputFault with
  | some reason => ⟨some (.output reason), []⟩
  | none => ⟨none, text⟩

/-- Shows an explanation; it does not matter whether that succeeds. -/
def explain (world : World) (text : Bytes) : Report := ⟨none, (world.write text).output⟩

def perform (world : World) : Plan → Report
  | .explain text => world.explain text
  | .refuse refusal => ⟨some (.refused refusal), []⟩
  | .transform command options input =>
    match world.read input with
    | .error fault => ⟨some fault, []⟩
    | .ok text => world.write (ended (command.apply options text))

end World

def run (world : World) (arguments : List Bytes) : Report := world.perform (plan arguments)

end SqlTidy.Cli
