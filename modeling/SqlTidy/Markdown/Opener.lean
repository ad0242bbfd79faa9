import SqlTidy.Markdown.Scan

/-! How the blocks of a document begin: headings, rules, quotes, indented code,
formulas and list items. -/
namespace SqlTidy.Markdown
open Ascii

def headingLevel (text : Bytes) : Nat :=
  let hashes := min 6 (count (· == hash) text)
  if text[hashes]? == some space then hashes else 0

def isSpecialHeading : Bytes → Bool
  | a :: b :: c :: _ :: _ => a == dot && b == hash && c == space
  | _ => false

def isHeading (text : Bytes) : Bool := headingLevel text > 0 || isSpecialHeading text

def dropHashes : Bytes → Bytes
  | [] => []
  | b :: before => if b == hash && !isEscaped before then dropHashes before else b :: before

def headingTitle (line : Bytes) : Bytes := dropFinalSpaces (dropHashes line.reverse).reverse

def beforeId? (line : Bytes) : Option (Bytes × Nat) :=
  match Bytes.find? [openBrace, hash] line with
  | none => none
  | some start =>
    match Bytes.find? [closeBrace] (line.drop start) with
    | none => none
    | some length => some (dropFinalSpaces (line.take start), start + length + 1)

/-- The title of a heading with a mark of `level` bytes, and its size. The newline is
not part of it, and after an identifier in braces neither is the rest of the line. -/
def heading (level : Nat) (text : Bytes) : Bytes × Nat :=
  let start := level + count (· == space) (text.drop level)
  let line := lineBody (text.drop start)
  match beforeId? line with
  | some (title, size) => (headingTitle title, start + size)
  | none => (headingTitle line, start + line.length)

def isRule (text : Bytes) : Bool :=
  let line := lineBody (text.drop (margin text))
  match line with
  | [] => false
  | c :: _ =>
    (c == star || c == dash || c == underscore) && line.all (fun b => b == c || b == space) &&
      3 ≤ line.countP (· == c)

def isUnderline (text : Bytes) : Bool :=
  match text with
  | [] => false
  | c :: _ =>
    (c == equals || c == dash) && (dropSpaces (text.dropWhile (· == c))).head? == some newline

def quoteSize (text : Bytes) : Nat :=
  let start := margin text
  match text.drop start with
  | [] => 0
  | b :: rest => if b == greater then (if startsWith space rest then start + 2 else start + 1) else 0

def indentSize (text : Bytes) : Nat :=
  if startsWith tab text then 1
  else if [space, space, space, space].isPrefixOf text then 4
  else 0

def indentedSize (text : Bytes) : Nat :=
  ((lines text).takeWhile fun line => indentSize line > 0 || blankLine line > 0).flatten.length

def formulaSize (text : Bytes) : Nat :=
  match text with
  | a :: b :: c :: rest =>
    if a == dollar && b == dollar && c != dollar then
      match Bytes.find? [dollar, dollar] (c :: rest) with
      | some offset => offset + 4
      | none => 0
    else 0
  | _ => 0

def bulletSize (text : Bytes) : Nat :=
  let start := margin text
  match text.drop start with
  | b :: c :: _ => if (b == star || b == plus || b == dash) && isSpaceOrTab c then start + 2 else 0
  | _ => 0

def numberSize (text : Bytes) : Nat :=
  let start := margin text
  let digits := count isDigit (text.drop start)
  match text.drop (start + digits) with
  | b :: c :: _ =>
    if digits > 0 && (b == dot || b == closeParen) && isSpaceOrTab c then start + digits + 2 else 0
  | _ => 0

def definitionSize : Bytes → Nat
  | b :: c :: _ => if b == colon && isSpaceOrTab c then 2 else 0
  | _ => 0

end SqlTidy.Markdown
