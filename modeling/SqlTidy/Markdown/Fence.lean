import SqlTidy.Markdown.Scan
import SqlTidy.Markdown.Entity

/-! Fenced code blocks: an opening line of three or more backticks or tildes with an
info string, the lines of code, and a closing line with the same marker. -/
namespace SqlTidy.Markdown
open Ascii

structure Fence where
  info : Bytes
  literal : Bytes
deriving Repr, DecidableEq

structure Opening where
  size : Nat
  marker : Bytes
  info : Bytes

def trimSpaces (text : Bytes) : Bytes := Bytes.dropRightWhile isSpace (text.dropWhile isSpace)

/-- The info string at the start of a text and what follows it: the rest of the line,
or what stands between braces on it. A brace that is not closed gives none. -/
def info? (text : Bytes) : Option (Bytes × Bytes) :=
  match text with
  | [] => some ([], [])
  | b :: rest =>
    if b == openBrace then
      let inner := rest.takeWhile fun c => c != closeBrace && c != newline
      match rest.drop inner.length with
      | [] => none
      | c :: after => if c == closeBrace then some (trimSpaces inner, after) else none
    else some (lineBody text, text.drop (lineBody text).length)

def lineEnd? (text : Bytes) : Option Bytes :=
  match dropSpaces text with
  | [] => some []
  | b :: rest => if b == newline then some rest else none

def opening? (text : Bytes) : Option Opening :=
  let start := text.drop (margin text)
  match start with
  | [] => none
  | c :: _ =>
    let marker := start.takeWhile (· == c)
    if (c == backtick || c == tilde) && 3 ≤ marker.length then
      match info? (dropSpaces (start.drop marker.length)) with
      | none => none
      | some (info, after) =>
        (lineEnd? after).map fun rest => ⟨text.length - rest.length, marker, info⟩
    else none

def afterClosing? (marker text : Bytes) : Option Bytes :=
  let start := text.drop (margin text)
  match marker with
  | [] => none
  | c :: _ =>
    if start.takeWhile (· == c) == marker then lineEnd? (start.drop marker.length) else none

/-- The code up to the closing line, and what follows that. A text that ends without
a closing line gives none. `fresh` says that a line begins here. -/
def upToClosing? (marker : Bytes) : Bool → Bytes → Option (Bytes × Bytes)
  | _, [] => none
  | fresh, b :: rest =>
    match if fresh then afterClosing? marker (b :: rest) else none with
    | some after => some ([], after)
    | none => (upToClosing? marker (b == newline) rest).map fun (code, after) => (b :: code, after)

def fenced? (text : Bytes) : Option (Fence × Nat) :=
  match opening? text with
  | none => none
  | some opening =>
    (upToClosing? opening.marker true (text.drop opening.size)).map fun (code, after) =>
      (⟨unescape opening.info, code⟩, text.length - after.length)

def fencedSize (text : Bytes) : Nat :=
  match fenced? text with
  | some (_, size) => size
  | none => 0

end SqlTidy.Markdown
