import SqlTidy.Text.Ascii

/-! Measuring the start of a text. Recognisers of Markdown constructs return the
number of bytes the construct takes, and zero when the text does not begin with
one. -/
namespace SqlTidy.Markdown
open Ascii

def count (p : UInt8 → Bool) (text : Bytes) : Nat := (text.takeWhile p).length

def dropSpaces (text : Bytes) : Bytes := text.dropWhile (· == space)

def dropFinalSpaces (text : Bytes) : Bytes := Bytes.dropRightWhile (· == space) text

def dropOne (b : UInt8) : Bytes → Bytes
  | [] => []
  | c :: rest => if c == b then rest else c :: rest

def startsWith (b : UInt8) (text : Bytes) : Bool := text.head? == some b

def isSpaceOrTab (b : UInt8) : Bool := b == space || b == tab

def margin (text : Bytes) : Nat := min 3 (count (· == space) text)

def lineBody (text : Bytes) : Bytes := text.takeWhile (· != newline)

def lineSize (text : Bytes) : Nat := min ((lineBody text).length + 1) text.length

def blankLine (text : Bytes) : Nat :=
  let n := count isSpaceOrTab text
  match text.drop n with
  | [] => n
  | b :: _ => if b == newline then n + 1 else 0

def lines : Bytes → List Bytes
  | [] => []
  | b :: rest =>
    if b == newline then [b] :: lines rest
    else match lines rest with
      | [] => [[b]]
      | line :: more => (b :: line) :: more

/-- Whether a byte is escaped by what stands before it, nearest byte first: an odd
number of backslashes. -/
def isEscaped (before : Bytes) : Bool := count (· == backslash) before % 2 == 1

def normalizeNewlines : Bytes → Bytes
  | [] => []
  | [b] => if b == carriageReturn then [newline] else [b]
  | b :: c :: rest =>
    if b == carriageReturn then
      if c == newline then newline :: normalizeNewlines rest
      else newline :: normalizeNewlines (c :: rest)
    else b :: normalizeNewlines (c :: rest)

end SqlTidy.Markdown
