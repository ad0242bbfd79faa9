import SqlTidy.Yaml.Scalar
import SqlTidy.Yaml.Value

/-! Reading the first document of a YAML text: block mappings and sequences by
indentation, collections in brackets, scalars and comments. Anchors, tags, directives
and block scalars are not read. -/
namespace SqlTidy.Yaml
open Ascii

/-- A place in the text: whether a line was ended on the way to it, its column, and the
text from there on. -/
structure Place where
  crossed : Bool
  column : Nat
  rest : Bytes

namespace Place

def atEnd (place : Place) : Bool := place.rest.isEmpty || (place.column == 0 && atMarker place.rest)

def atItem (place : Place) : Bool := place.rest.head? == some dash && atGap (place.rest.drop 1)

end Place

/-- Goes to the next place that is neither blank nor comment. Outside brackets a tab may
not stand where a line is indented. -/
def advance (flow : Bool) : (crossed comment : Bool) → (column : Nat) → Bytes → Option Place
  | crossed, _, column, [] => some ⟨crossed, column, []⟩
  | crossed, comment, column, b :: rest =>
    if b == newline then advance flow true false 0 rest
    else if comment || b == space then advance flow crossed comment (column + 1) rest
    else if b == tab then (if crossed && !flow then none else advance flow crossed false (column + 1) rest)
    else if b == hash then advance flow crossed true (column + 1) rest
    else some ⟨crossed, column, b :: rest⟩

def next (column : Nat) (text : Bytes) : Option Place := advance false false false column text

def nextInside (text : Bytes) : Option Bytes := (advance true false false 1 text).map Place.rest

def key? (column : Nat) (text : Bytes) : Option (Bytes × Nat × Bytes) := do
  let line := text.takeWhile (· != newline)
  let (key, after) ← match line with
    | 0x27 :: rest => single [] 0 rest
    | 0x22 :: rest => double false [] 0 rest
    | _ =>
      if startsPlain false line then
        let scanned := plain false 0 [] 0 0 line
        some (scanned.text, scanned.rest)
      else none
  match after.dropWhile isGap with
  | 0x3A :: rest =>
    if atGap rest then
      let length := line.length - rest.length
      some (key, column + length, text.drop length)
    else none
  | _ => none

def distinct? (members : List (Bytes × Yaml)) : Option Yaml :=
  if members.Pairwise fun a b => a.1 ≠ b.1 then some (.mapping members) else none

def flowScalar? (text : Bytes) : Option ((Bool × Bytes) × Bytes) :=
  match text with
  | 0x27 :: rest => (single [] 0 rest).map fun (text, rest) => ((true, text), rest)
  | 0x22 :: rest => (double false [] 0 rest).map fun (text, rest) => ((true, text), rest)
  | _ =>
    if startsPlain true text then
      let scanned := plain true 0 [] 0 1 text
      some ((false, scanned.text), scanned.rest)
    else none

def ofScalar (scalar : Bool × Bytes) : Yaml := if scalar.1 then .string scalar.2 else ofPlain scalar.2

mutual

def flowValue : (fuel : Nat) → Bytes → Option (Yaml × Bytes)
  | 0, _ => none
  | fuel + 1, text =>
    match text with
    | 0x5B :: rest => do
      let (items, rest) ← flowItems fuel (← nextInside rest)
      return (.sequence items, rest)
    | 0x7B :: rest => do
      let (members, rest) ← flowMembers fuel (← nextInside rest)
      return (← distinct? members, rest)
    | _ => (flowScalar? text).map fun (scalar, rest) => (ofScalar scalar, rest)

def flowMember : (fuel : Nat) → Bytes → Option (Yaml × Bytes)
  | 0, _ => none
  | fuel + 1, text => do
    match ← nextInside text with
    | 0x3A :: rest =>
      let rest ← nextInside rest
      if rest.head?.any fun b => b == comma || b == closeBracket || b == closeBrace then return (.null, rest)
      else
        let (value, rest) ← flowValue fuel rest
        return (value, ← nextInside rest)
    | rest => return (.null, rest)

def flowItems : (fuel : Nat) → Bytes → Option (List Yaml × Bytes)
  | 0, _ => none
  | fuel + 1, text =>
    match text with
    | 0x5D :: rest => some ([], rest)
    | _ => do
      let (first, after) ← flowValue fuel text
      let place ← nextInside after
      let (item, rest) ←
        if place.head? == some colon then do
          let (key, _) ← flowScalar? text
          let (value, rest) ← flowMember fuel place
          pure (.mapping [(key.2, value)], rest)
        else pure (first, place)
      match rest with
      | 0x2C :: rest => do
        let (items, rest) ← flowItems fuel (← nextInside rest)
        return (item :: items, rest)
      | 0x5D :: rest => return ([item], rest)
      | _ => none

def flowMembers : (fuel : Nat) → Bytes → Option (List (Bytes × Yaml) × Bytes)
  | 0, _ => none
  | fuel + 1, text =>
    match text with
    | 0x7D :: rest => some ([], rest)
    | _ => do
      let (key, after) ← flowScalar? text
      let (value, rest) ← flowMember fuel after
      match rest with
      | 0x2C :: rest => do
        let (members, rest) ← flowMembers fuel (← nextInside rest)
        return ((key.2, value) :: members, rest)
      | 0x7D :: rest => return ([(key.2, value)], rest)
      | _ => none

end

def inlineValue (fuel least : Nat) (place : Place) : Option (Yaml × Place) :=
  match place.rest with
  | 0x5B :: _ => flow fuel
  | 0x7B :: _ => flow fuel
  | 0x27 :: rest => do
    let (text, rest) ← single [] 0 rest
    return (.string text, ← next 1 rest)
  | 0x22 :: rest => do
    let (text, rest) ← double false [] 0 rest
    return (.string text, ← next 1 rest)
  | text => do
    if startsPlain false text then
      let scanned := plain false least [] 0 place.column text
      return (ofPlain scanned.text, ← advance false scanned.crossed false scanned.column scanned.rest)
    else none
where
  flow (fuel : Nat) : Option (Yaml × Place) := do
    let (value, rest) ← flowValue fuel place.rest
    return (value, ← next 1 rest)

mutual

def blockValue : (fuel least : Nat) → Place → Option (Yaml × Place)
  | 0, _, _ => none
  | fuel + 1, least, place =>
    if place.atEnd || place.column < least then some (.null, place)
    else if place.atItem then do
      let (items, place) ← blockItems fuel place.column place
      return (.sequence items, place)
    else if (key? place.column place.rest).isSome then do
      let (members, after) ← blockMembers fuel place.column place
      return (← distinct? members, after)
    else inlineValue fuel least place

/-- The value after a key at column `column`. On the line of the key it is a scalar or in
brackets; below it, an item may also stand right under the key. -/
def memberValue : (fuel column : Nat) → Place → Option (Yaml × Place)
  | 0, _, _ => none
  | fuel + 1, column, place =>
    if place.rest.isEmpty then some (.null, place)
    else if !place.crossed then inlineValue fuel (column + 1) place
    else if place.column == column && place.atItem && !place.atEnd then do
      let (items, place) ← blockItems fuel column place
      return (.sequence items, place)
    else blockValue fuel (column + 1) place

def blockMembers : (fuel column : Nat) → Place → Option (List (Bytes × Yaml) × Place)
  | 0, _, _ => none
  | fuel + 1, column, place => do
    let (key, after, text) ← key? place.column place.rest
    let (value, place) ← memberValue fuel column (← next after text)
    if place.atEnd then return ([(key, value)], place)
    else if !place.crossed || column < place.column then none
    else if place.column < column then return ([(key, value)], place)
    else
      let (members, place) ← blockMembers fuel column place
      return ((key, value) :: members, place)

def blockItems : (fuel column : Nat) → Place → Option (List Yaml × Place)
  | 0, _, _ => none
  | fuel + 1, column, place => do
    let (value, place) ← blockValue fuel (column + 1) (← next (place.column + 1) (place.rest.drop 1))
    if place.atEnd then return ([value], place)
    else if !place.crossed || column < place.column then none
    else if place.column < column || !place.atItem then return ([value], place)
    else
      let (items, place) ← blockItems fuel column place
      return (value :: items, place)

end

def isAllowed (c : Char) : Bool :=
  let n := c.toNat
  n == 0x09 || n == 0x0A || n == 0x0D || (0x20 ≤ n && n ≤ 0x7E) || n == 0x85
    || (0xA0 ≤ n && n ≤ 0xD7FF) || (0xE000 ≤ n && n ≤ 0xFFFD) || 0x10000 ≤ n

def unixLines : Bytes → Bytes
  | 0x0D :: 0x0A :: rest => newline :: unixLines rest
  | 0x0D :: rest => newline :: unixLines rest
  | b :: rest => b :: unixLines rest
  | [] => []

def withoutMark : Bytes → Bytes
  | 0xEF :: 0xBB :: 0xBF :: rest => rest
  | text => text

def document? (text : Bytes) : Option Yaml := do
  if !(glyphs text).all (·.is isAllowed) then none
  let lines := unixLines (withoutMark text)
  let fuel := 2 * lines.length + 4
  let place ← advance false true false 0 lines
  let (value, after) ←
    if place.column == 0 && place.rest.take 3 == [dash, dash, dash] && atGap (place.rest.drop 3) then do
      let inner ← next 3 (place.rest.drop 3)
      if inner.crossed || inner.rest.isEmpty then blockValue fuel 0 inner else inlineValue fuel 0 inner
    else blockValue fuel 0 place
  if after.atEnd || after.crossed || after.rest.head? != some colon then some value else none

def members? (text : Bytes) : Option (List (Bytes × Yaml)) :=
  match document? text with
  | some (.mapping members) => some members
  | some .null => some []
  | _ => none

end SqlTidy.Yaml
