import SqlTidy.Markdown.Scan

/-! Bare addresses in running text, such as `http://host/path`. -/
namespace SqlTidy.Markdown
open Ascii

def schemes : List Bytes := ["http://", "https://", "ftp://", "mailto:"].map utf8

def startsWithScheme (text : Bytes) : Bool :=
  schemes.any fun scheme => startsWithFold scheme text && text[scheme.length]?.any isAlnum

def endsInReference : Bytes → Bool
  | [] => false
  | b :: before =>
    let name := count isLower before
    b == semicolon && 2 ≤ name && name ≤ 5 && before[name]? == some ampersand

def isPlain (backwards : Bytes) : Bool := backwards[1]? != some backslash

def dropFinalPoint (backwards : Bytes) : Bytes :=
  match backwards with
  | [] => []
  | b :: before => if (b == dot || b == comma) && isPlain backwards then before else backwards

def dropFinalSemicolon (backwards : Bytes) : Bytes :=
  match backwards with
  | [] => []
  | b :: before => if b == semicolon && isPlain backwards && !endsInReference backwards then before else backwards

def opener? (b : UInt8) : Option UInt8 :=
  if b == closeParen then some openParen
  else if b == closeBracket then some openBracket
  else if b == closeBrace then some openBrace
  else none

/-- Whether a closing bracket has its partner before it on the line, which is written
backwards; `depth` brackets are still without one. -/
def isPaired (opening closing : UInt8) : (depth : Nat) → Bytes → Bool
  | 0, _ => true
  | _, [] => false
  | depth + 1, b :: before =>
    if b == newline then false
    else if b == closing then isPaired opening closing (depth + 2) before
    else if b == opening then isPaired opening closing depth before
    else isPaired opening closing (depth + 1) before

def dropFinalBracket (backwards before : Bytes) : Bytes :=
  match backwards with
  | [] => []
  | b :: rest =>
    match opener? b with
    | some opening => if isPaired opening b 1 (rest ++ before) then rest else backwards
    | none => backwards

/-- The size of the address that a text begins with. `before` is what precedes it,
nearest byte first. -/
def addressSize (before text : Bytes) : Nat :=
  if before.head?.any isLetter || !startsWithScheme text then 0
  else
    let run := text.takeWhile fun b => !(isSpace b || b == less)
    (dropFinalBracket (dropFinalSemicolon (dropFinalPoint run.reverse)) before).length

end SqlTidy.Markdown
