import SqlTidy.Text.Bytes

/-! The edit distance of two texts: the least number of bytes to insert, delete or
replace. -/
namespace SqlTidy.Distance

def cells (a : UInt8) (left : Nat) : Bytes → List Nat → List Nat
  | b :: text, diagonal :: above :: row =>
    let cell := if a == b then diagonal else 1 + min (min diagonal above) left
    cell :: cells a cell text (above :: row)
  | _, _ => []

def nextRow (text : Bytes) (row : List Nat) (a : UInt8) : List Nat :=
  let first := row.headD 0 + 1
  first :: cells a first text row

def distance (first second : Bytes) : Nat :=
  (first.foldl (nextRow second) (List.range (second.length + 1))).getLastD 0

end SqlTidy.Distance
