import SqlTidy.Markdown.Fence
import SqlTidy.Markdown.Opener

/-! Lists. The lines of an item are gathered without their indentation; they are then
either plain text, or blocks of their own, or text before a nested list. -/
namespace SqlTidy.Markdown
open Ascii

inductive ListKind where
  | bullets
  | numbers
  | definitions
deriving DecidableEq

/-- What a list carries from item to item: whether the last item was a term to be
defined, whether an item held blocks, and whether the list has ended. -/
structure ListState where
  term : Bool := false
  loose : Bool := false
  ended : Bool := false

def ListKind.changesAt (kind : ListKind) (line : Bytes) : Bool :=
  (definitionSize line > 0 && kind != .definitions) || (numberSize line > 0 && kind != .numbers) ||
    (bulletSize line > 0 && kind != .bullets)

def beginsItem (line : Bytes) : Bool :=
  (bulletSize line > 0 && !isRule line) || numberSize line > 0 || definitionSize line > 0

/-- The lines of an item: their text, where in it a nested list begins (zero: nowhere),
how many bytes were read, and the state of the list after them. -/
structure Gathered where
  raw : Bytes
  nested : Nat := 0
  size : Nat
  state : ListState

def indentation (line : Bytes) : Nat × Nat :=
  if startsWith tab line then (4, 1)
  else
    let depth := min 4 (count (· == space) line)
    (depth, depth)

def lastLineStart (text : Bytes) : Nat :=
  text.length - 1 - count (· != newline) text.reverse.tail

/-- Whether definitions end at a line that is not indented, given what follows it: they
go on if this or the next line with text begins a definition. -/
def definitionsEnd (after : Bytes) : Bool :=
  if after.length < 2 then true
  else
    let gap := after.dropWhile (· != newline)
    let next := gap.dropWhile (· == newline)
    !startsWith colon after && 1 < next.length && !startsWith colon next

namespace Gathered

def add (g : Gathered) (blank : Bool) (line : Bytes) (size : Nat) : Gathered :=
  { g with raw := g.raw ++ (if blank then [newline] else []) ++ line, size := g.size + size }

def loosen (g : Gathered) (when : Bool) : Gathered :=
  { g with state := { g.state with loose := g.state.loose || when } }

def finish (g : Gathered) (ended : Bool) : Gathered :=
  { g with state := { g.state with ended := g.state.ended || ended } }

/-- Notes that a nested list begins with the given line, at the end of what was
gathered; if it begins with a definition, then with the line before it, the term. -/
def nest (g : Gathered) (line : Bytes) : Gathered :=
  if g.nested > 0 then g
  else { g with nested := if definitionSize line > 0 then lastLineStart g.raw else g.raw.length }

end Gathered

def gather (kind : ListKind) (indent : Nat) : (blank : Bool) → List Bytes → Gathered → Gathered
  | _, [], g => g
  | blank, line :: more, g =>
    if blankLine line > 0 then gather kind indent true more { g with size := g.size + line.length }
    else
      let (depth, width) := indentation line
      let text := line.drop width
      if kind != .definitions && depth == 0 && (opening? text).isSome then g.finish true
      else if beginsItem text then
        let text := if width == 4 && definitionSize text == 0 then line.drop (3 - count (· == space) text) else text
        if depth ≤ indent then
          if kind.changesAt text then g.finish true else g.loosen blank
        else gather kind indent false more (((g.loosen blank).nest text).add blank text line.length)
      else if isHeading text then
        if blank && depth < 4 then g.finish true
        else gather kind indent false more ((g.loosen true).add blank text line.length)
      else if blank && depth < 4 then
        g.finish (kind != .definitions || definitionsEnd more.flatten)
      else if blank then
        gather kind indent false more ((g.loosen true).add true (newline :: text) line.length)
      else gather kind indent false more (g.add false text line.length)

/-- The mark of an item: its size, and whether it makes the item a term. A line without
a mark is a term of a list of definitions, and no item of another list. -/
def itemMark? (kind : ListKind) (state : ListState) (text : Bytes) : Option (Nat × Bool) :=
  if bulletSize text > 0 then some (bulletSize text, state.term)
  else if numberSize text > 0 then some (numberSize text, state.term)
  else if definitionSize text > 0 then some (definitionSize text, false)
  else if kind == .definitions then some (0, true)
  else none

def item? (kind : ListKind) (state : ListState) (text : Bytes) : Option Gathered :=
  (itemMark? kind state text).map fun (mark, term) =>
    let indent := if startsWith tab text then 4 else margin text
    let start := mark + count (· == space) (text.drop mark)
    let first := if start == 0 then [] else (text.drop start).take (lineSize (text.drop start))
    let size := start + first.length
    gather kind indent false (lines (text.drop size)) { raw := first, size, state := { state with term } }

end SqlTidy.Markdown
