import SqlTidy.Markdown.Html
import SqlTidy.Markdown.ListItem
import SqlTidy.Markdown.Reference
import SqlTidy.Markdown.Table

/-! Block structure. A document is cut into items in document order: fenced code
blocks, texts whose inline constructs are still to be read, and definitions of link
references. Quotes and list items are cut in the same way, one level deeper; what
lies too deep is dropped. -/
namespace SqlTidy.Markdown
open Ascii

/-- A piece of a document. The caption of a table is read with the definitions that
stand before it only, and `levels` is how deep its constructs may still be nested. -/
inductive Item where
  | fence (fence : Fence)
  | text (text : Bytes)
  | caption (levels : Nat) (text : Bytes)
  | definition (id : Bytes)

def itemPieces (inner : Bytes → List Item) (g : Gathered) : List Item :=
  let start := g.raw.take g.nested
  let nested := g.raw.drop g.nested
  if g.state.loose && !g.state.term then
    if g.nested > 0 then inner start ++ inner nested else inner g.raw
  else if g.nested > 0 then Item.text start :: inner nested
  else [Item.text g.raw]

def listPieces (inner : Bytes → List Item) (kind : ListKind) : (fuel : Nat) → ListState → Bytes → List Item × Nat
  | 0, _, _ => ([], 0)
  | fuel + 1, state, text =>
    match item? kind state text with
    | none => ([], 0)
    | some g =>
      if g.size == 0 || g.state.ended || text.length ≤ g.size then (itemPieces inner g, g.size)
      else
        let (more, size) := listPieces inner kind fuel g.state (text.drop g.size)
        (itemPieces inner g ++ more, g.size + size)

def list (inner : Bytes → List Item) (kind : ListKind) (text : Bytes) : List Item × Nat :=
  listPieces inner kind text.length {} text

/-- The size of a line of a quote. A fenced code block that begins anywhere in the line
belongs to it as a whole. -/
def quoteLineSize : Bytes → Nat
  | [] => 0
  | b :: rest =>
    if b == newline then 1
    else
      let size := fencedSize (b :: rest)
      if size > 0 then size - 1 + (if (b :: rest)[size - 1]? == some newline then 1 else 0)
      else quoteLineSize rest + 1

/-- The text of a quote without the marks of its lines, and its size. It ends after a
blank line that is followed neither by another one nor by a marked line. -/
def quoteText : (fuel : Nat) → Bytes → Bytes × Nat
  | 0, _ => ([], 0)
  | fuel + 1, text =>
    if text.isEmpty then ([], 0)
    else
      let size := quoteLineSize text
      let mark := quoteSize text
      let after := text.drop size
      if mark == 0 && blankLine text > 0 && (after.isEmpty || (quoteSize after == 0 && blankLine after == 0)) then
        ([], size)
      else
        let (more, rest) := quoteText fuel after
        ((text.take size).drop mark ++ more, size + rest)

def paragraphItem (text : Bytes) : List Item :=
  let trimmed := dropSpaces text
  let body := if trimmed.getLast? == some newline then trimmed.dropLast else trimmed
  if text.isEmpty then [] else [Item.text (dropFinalSpaces body)]

def interrupts (text : Bytes) : Bool :=
  isHeading text || isRule text || quoteSize text > 0 || fencedSize text > 0 || (tableHead? text).isSome

def endParagraph (text : Bytes) (here size : Nat) : List Item × Nat :=
  (paragraphItem (text.take here), here + size)

/-- Definitions whose first term stands at `start`. What stands before it is dropped. -/
def definitionsAt (inner : Bytes → List Item) (text : Bytes) (start : Nat) : List Item × Nat :=
  let (pieces, size) := list inner .definitions (text.drop start)
  (pieces, start + size)

def underlined (text : Bytes) (previous here : Nat) : List Item × Nat :=
  let title := (text.take (here - 1)).drop previous
  (paragraphItem (text.take previous) ++ [Item.text (dropFinalSpaces (dropSpaces title))],
    here + (lineBody (text.drop here)).length)

/-- The pieces of a paragraph and its size, read from the line at `here`; the line
before it begins at `previous`. A definition makes the line before it its term. -/
def paragraphFrom (inner : Bytes → List Item) (text : Bytes) : (fuel previous here : Nat) → List Item × Nat
  | 0, _, here => endParagraph text here 0
  | fuel + 1, previous, here =>
    let current := text.drop here
    if current.isEmpty then endParagraph text here 0
    else match definition? current with
      | some definition =>
        let (before, size) := endParagraph text here definition.size
        (Item.definition definition.id :: before, size)
      | none =>
        if blankLine current > 0 then
          if current[1]? == some colon then
            let (pieces, size) := definitionsAt inner text previous
            if previous < size then (pieces, size) else endParagraph text here (blankLine current)
          else endParagraph text here (blankLine current)
        else if here > 0 && isUnderline current then underlined text previous here
        else if interrupts current then endParagraph text here 0
        else if definitionSize current > 0 then definitionsAt inner text previous
        else paragraphFrom inner text fuel here (here + lineSize current)

def paragraph (inner : Bytes → List Item) (text : Bytes) : List Item × Nat :=
  paragraphFrom inner text (text.length + 1) 0 0

def tablePieces (levels : Nat) (table : Table) : List Item :=
  table.cells.map Item.text ++ table.caption.toList.map (Item.caption levels)

def headingPieces (title : Bytes) : List Item := if title.isEmpty then [] else [Item.text title]

def block (levels : Nat) (inner : Bytes → List Item) (text : Bytes) : List Item × Nat :=
  if headingLevel text > 0 then
    let (title, size) := heading (headingLevel text) text
    (headingPieces title, size)
  else if isSpecialHeading text then
    let (title, size) := heading 2 text
    (headingPieces title, size)
  else if startsWith less text && htmlBlockSize text > 0 then ([], htmlBlockSize text)
  else if blankLine text > 0 then ([], blankLine text)
  else if indentSize text > 0 then ([], indentedSize text)
  else match fenced? text with
    | some (fence, size) => ([Item.fence fence], size)
    | none =>
      if isRule text then ([], (lineBody text).length)
      else if quoteSize text > 0 then
        let (quoted, size) := quoteText text.length text
        (inner quoted, size)
      else match table? text with
        | some table => (tablePieces levels table, table.size)
        | none =>
          if bulletSize text > 0 then list inner .bullets text
          else if numberSize text > 0 then list inner .numbers text
          else if definitionSize text > 0 then list inner .definitions text
          else if formulaSize text > 0 then ([], formulaSize text)
          else paragraph inner text

def blockSequence (levels : Nat) (inner : Bytes → List Item) : (fuel : Nat) → Bytes → List Item
  | 0, _ => []
  | fuel + 1, text =>
    if text.isEmpty then []
    else
      let (pieces, size) := block levels inner text
      pieces ++ blockSequence levels inner fuel (text.drop size)

def pieces : (levels : Nat) → Bytes → List Item
  | 0, _ => []
  | levels + 1, text => blockSequence levels (pieces levels) text.length text

end SqlTidy.Markdown
