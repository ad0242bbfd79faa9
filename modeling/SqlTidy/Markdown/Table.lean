import SqlTidy.Markdown.CodeSpan

/-! Tables: a header line, a ruler line of dashes and bars, rows as long as they hold
a bar, and a caption. Bars inside code spans and escaped bars do not count. -/
namespace SqlTidy.Markdown
open Ascii

/-- The first line byte by byte, each with the mark whether it is escaped, and what
follows from the newline on. A code span counts as one backtick, even if it covers
newlines. The first `skip` bytes belong to a code span; `odd` says that an odd number
of backslashes stands before the text. -/
def scanLine : (skip : Nat) → (odd : Bool) → Bytes → List (UInt8 × Bool) × Bytes
  | _, _, [] => ([], [])
  | skip + 1, _, _ :: rest => scanLine skip false rest
  | 0, odd, b :: rest =>
    if b == newline then ([], b :: rest)
    else
      let span := codeSpanSize (b :: rest)
      if span > 0 then
        let (line, after) := scanLine (span - 1) false rest
        ((backtick, false) :: line, after)
      else
        let (line, after) := scanLine 0 (b == backslash && !odd) rest
        ((b, odd) :: line, after)

def isBar (cell : UInt8 × Bool) : Bool := cell.1 == bar && !cell.2

def closesCell (line : Bytes) : Bool :=
  match (Bytes.dropRightWhile (fun b => b == newline || b == space) line).reverse with
  | b :: before => b == bar && 2 ≤ before.length && !isEscaped before
  | [] => false

def rulerColumns (wanted : Nat) : (fuel column : Nat) → Bytes → Option Bytes
  | 0, _, _ => none
  | fuel + 1, column, text =>
    if text.isEmpty || startsWith newline text then
      if column == wanted then some text else none
    else
      let dashes := dropOne colon ((dropOne colon text).dropWhile (· == dash))
      match dropSpaces dashes with
      | [] => none
      | b :: rest =>
        if dashes.length == text.length then none
        else if b == bar then
          let next := dropSpaces rest
          if wanted ≤ column + 1 && !(next.isEmpty || startsWith newline next) then none
          else rulerColumns wanted fuel (column + 1) next
        else if column + 1 < wanted then none
        else if b == newline then rulerColumns wanted fuel (column + 1) (b :: rest)
        else none

structure TableHead where
  size : Nat
  columns : Nat
  header : Bytes

def tableHead? (text : Bytes) : Option TableHead :=
  let (line, after) := scanLine 0 false text
  let bars := line.countP isBar
  if bars == 0 then none
  else
    let first := text.take (text.length - after.length + min 1 after.length)
    let columns := bars + 1 - (if startsWith bar text then 1 else 0) - (if closesCell first then 1 else 0)
    let isRuler := line.all (fun (b, _) => b == dash || b == space || b == colon || b == bar) &&
      !line.all (fun (b, _) => b == space || b == bar)
    let ruler := if isRuler then text else after.drop 1
    let header := if isRuler then [] else first
    if ruler.isEmpty then none
    else
      (rulerColumns columns (ruler.length + 1) 0 (dropSpaces (dropOne bar ruler))).map fun rest =>
        ⟨text.length - rest.length + min 1 rest.length, columns, header⟩

def cellRest : (odd : Bool) → Bytes → Bytes × Bytes
  | _, [] => ([], [])
  | odd, b :: rest =>
    if b == newline || (b == bar && !odd) then ([], b :: rest)
    else
      let (cell, after) := cellRest (b == backslash && !odd) rest
      (b :: cell, after)

/-- The texts of the cells of a row. A cell that ends in several bars spans as many
columns, and an empty cell may be one of those it spans. -/
def rowCells : (columns spanned : Nat) → Bytes → List Bytes
  | 0, _, _ => []
  | columns + 1, spanned, text =>
    if text.isEmpty then []
    else
      let start := dropSpaces text
      let lead := codeSpanSize start - 1
      let (tail, after) := cellRest false (start.drop lead)
      let cell := dropFinalSpaces (start.take lead ++ tail)
      let bars := count (· == bar) after
      if cell.isEmpty && spanned > 0 then
        rowCells columns (spanned - 1 + (bars - 1)) (after.drop bars)
      else
        cell :: rowCells columns (spanned + (bars - 1)) (after.drop bars)

def row (columns : Nat) (line : Bytes) : List Bytes :=
  rowCells columns 0 (line.dropWhile (· == bar))

def isFooter (line : Bytes) : Bool :=
  let (cells, _) := scanLine 0 false (line.drop (margin line))
  cells.all (fun cell => isBar cell || cell.1 == equals) && cells.any isBar

def withoutId (caption : Bytes) : Bytes :=
  match Bytes.find? [openBrace, hash] caption with
  | none => caption
  | some start =>
    let length := count (· != closeBrace) (caption.drop start)
    if start > 0 && 2 < length && (caption.drop (start + length + 1)).all isSpace then caption.take start
    else caption

def throughBlankLine (text : Bytes) : Bytes :=
  let kept := (lines text).takeWhile fun line => blankLine line == 0
  kept.flatten ++ (((lines text).drop kept.length).head?).getD []

structure Table where
  cells : List Bytes
  caption : Option Bytes
  size : Nat

def table? (text : Bytes) : Option Table :=
  match tableHead? text with
  | none => none
  | some head =>
    let rows := (lines (text.drop head.size)).takeWhile (·.contains bar)
    let cells := row head.columns head.header ++
      (rows.filter fun line => !isFooter line).flatMap (row head.columns)
    let size := head.size + rows.flatten.length
    let mark := utf8 "Table: "
    if mark.isPrefixOf (text.drop size) then
      let caption := throughBlankLine (text.drop (size + mark.length))
      some ⟨cells, some (withoutId caption), size + mark.length + caption.length⟩
    else some ⟨cells, none, size⟩

end SqlTidy.Markdown
