import SqlTidy.Text.Ascii

/-! Files below a working directory, and what is found at a path. -/
namespace SqlTidy.Cli
open Ascii

/-- Files under their paths; a path that ends in a slash is a directory. -/
abbrev Files := List (Bytes × Bytes)

inductive PathFault where
  | missing
  | notDirectory
  | isDirectory
  | invalid
deriving Repr, DecidableEq

def PathFault.message (path : Bytes) : PathFault → Bytes
  | missing => utf8 "open " ++ path ++ utf8 ": no such file or directory"
  | notDirectory => utf8 "open " ++ path ++ utf8 ": not a directory"
  | isDirectory => utf8 "read " ++ path ++ utf8 ": is a directory"
  | invalid => utf8 "open " ++ path ++ utf8 ": invalid argument"

def segments (path : Bytes) : List Bytes :=
  (Bytes.split slash path).filter fun name => !name.isEmpty && name != [dot]

inductive Spot where
  | inside (names : List Bytes)
  | outside

namespace Files

def read (files : Files) : Spot → Except PathFault Bytes
  | .outside => .error .isDirectory
  | .inside names =>
    match files.find? fun file => file.1.getLast? != some slash && segments file.1 == names with
    | some (_, contents) => .ok contents
    | none =>
      if names.isEmpty || files.any fun file => names.isPrefixOf (segments file.1) then .error .isDirectory
      else .error .missing

def step (files : Files) (spot : Spot) (name : Bytes) : Except PathFault Spot :=
  match files.read spot with
  | .ok _ => .error .notDirectory
  | .error .isDirectory =>
    if name.isEmpty || name == [dot] then .ok spot
    else
      match spot with
      | .outside => if name == [dot, dot] then .ok .outside else .error .missing
      | .inside names =>
        if name != [dot, dot] then .ok (.inside (names ++ [name]))
        else if names.isEmpty then .ok .outside
        else .ok (.inside names.dropLast)
  | .error fault => .error fault

def open? (files : Files) (path : Bytes) : Except PathFault Bytes :=
  if path.contains 0 then .error .invalid
  else if path.isEmpty then .error .missing
  else do
    let start := if path.head? == some slash then Spot.outside else .inside []
    let spot ← (Bytes.split slash path).foldlM files.step start
    files.read spot

end Files
end SqlTidy.Cli
