import SqlTidy.Markdown.Address
import SqlTidy.Markdown.CodeSpan
import SqlTidy.Markdown.Emphasis
import SqlTidy.Markdown.Html
import SqlTidy.Markdown.Link

/-! Inline structure. A text is read from left to right; each construct found is read
through or skipped, and the code spans that stand for fenced code blocks are kept. -/
namespace SqlTidy.Markdown
open Ascii

def isProtectable (b : UInt8) : Bool :=
  (utf8 "\n\\`*_\x7b\x7d[]()#+-.!:|&<>~^$").contains b

def escapeSize : Bytes → Nat
  | _ :: b :: _ => if isProtectable b then 2 else 0
  | [_] => 2
  | [] => 0

def entitySize (text : Bytes) : Nat :=
  let body := dropOne hash text.tail
  let name := body.takeWhile isAlnum
  if (body.drop name.length).head? == some semicolon then
    text.length - body.length + name.length + 1
  else 0

def inlineFormulaSize (text : Bytes) : Nat :=
  match text with
  | _ :: b :: rest =>
    if b == dollar then 0
    else match Bytes.find? [dollar] (b :: rest) with
      | some offset => offset + 2
      | none => 0
  | _ => 0

structure Reader where
  known : List Bytes
  inLink : Bool
  inner : (inLink : Bool) → Bytes → List Fence

/-- The link that a text begins with: the fences in its label and its size. The label
of an image is not read. Links inside a link may not begin right after a bracket, and
must not be footnotes. -/
def Reader.link (reader : Reader) (before text : Bytes) : List Fence × Nat :=
  if reader.inLink && (startsWith openBracket before || text[1]? == some caret) then ([], 0)
  else if startsWith bang text then
    match link? reader.known text.tail with
    | some link => ([], link.size + 1)
    | none => ([], 0)
  else match link? reader.known text with
    | some link => (reader.inner true link.label, link.size)
    | none => ([], 0)

def Reader.construct (reader : Reader) (before text : Bytes) : List Fence × Nat :=
  match text with
  | [] => ([], 0)
  | b :: rest =>
    if b == star || b == underscore || b == tilde then emphasis (reader.inner reader.inLink) text
    else if b == backtick then codeSpan text
    else if b == openBracket || ((b == bang || b == caret) && startsWith openBracket rest) then
      reader.link before text
    else if b == less then ([], angleSize text)
    else if b == backslash then ([], escapeSize text)
    else if b == ampersand then ([], entitySize text)
    else if b == dollar then ([], inlineFormulaSize text)
    else if isLetter b && !reader.inLink then ([], addressSize before text)
    else ([], 0)

def Reader.scan (reader : Reader) : (before : Bytes) → (skip : Nat) → Bytes → List Fence
  | _, _, [] => []
  | before, skip + 1, b :: rest => reader.scan (b :: before) skip rest
  | before, 0, b :: rest =>
    let (fences, size) := reader.construct before (b :: rest)
    fences ++ reader.scan (b :: before) (size - 1) rest

def spans (known : List Bytes) : (levels : Nat) → (inLink : Bool) → Bytes → List Fence
  | 0, _, _ => []
  | levels + 1, inLink, text => Reader.scan ⟨known, inLink, spans known levels⟩ [] 0 text

end SqlTidy.Markdown
