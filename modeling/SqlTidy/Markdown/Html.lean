import SqlTidy.Markdown.Scan

/-! HTML inside Markdown: blocks, comments, tags and links in angle brackets. None of
them holds code blocks, so only their sizes matter. -/
namespace SqlTidy.Markdown
open Ascii

def blockTags : List Bytes :=
  ["blockquote", "del", "dd", "div", "dl", "dt", "fieldset", "form", "h1", "h2", "h3", "h4", "h5", "h6", "iframe",
   "ins", "li", "math", "noscript", "ol", "pre", "p", "script", "style", "table", "ul", "address", "article", "aside",
   "canvas", "details", "dialog", "figcaption", "figure", "footer", "header", "hgroup", "main", "nav", "output",
   "progress", "section", "svg", "video"].map utf8

/-- The size of a comment. The mark that ends it may begin with the last dash of the
mark that begins it. -/
def commentSize (text : Bytes) : Nat :=
  if (utf8 "<!--").isPrefixOf text then
    match Bytes.find? (utf8 "-->") (text.drop 3) with
    | some offset => offset + 6
    | none => 0
  else 0

/-- The size of a closing tag whose line is otherwise blank and is followed by a blank
line or by the end of the text. -/
def closingTagSize (tag text : Bytes) : Nat :=
  let close := less :: slash :: tag ++ [greater]
  if close.isPrefixOf text then
    let line := blankLine (text.drop close.length)
    let after := text.drop (close.length + line)
    if line == 0 then 0
    else if after.isEmpty then close.length + line
    else if blankLine after == 0 then 0
    else close.length + line + blankLine after
  else 0

def throughClosingTag (tag : Bytes) : Bytes → Nat
  | [] => 0
  | b :: rest =>
    let size := closingTagSize tag (b :: rest)
    if size > 0 then size
    else match throughClosingTag tag rest with
      | 0 => 0
      | more => more + 1

def ruleTagSize (text : Bytes) : Nat :=
  match text with
  | _ :: h :: r :: next :: _ =>
    if toLower h == 0x68 && toLower r == 0x72 && (next == space || next == slash || next == greater) then
      let size := 3 + count (fun b => b != greater && b != newline) (text.drop 3)
      if (text.drop size).head? == some greater then
        match blankLine (text.drop (size + 1)) with
        | 0 => 0
        | line => size + 1 + line
      else 0
    else 0
  | _ => 0

def htmlBlockSize (text : Bytes) : Nat :=
  let tag := text.tail.takeWhile isAlnum
  if blockTags.contains tag then
    if tag == utf8 "ins" || tag == utf8 "del" then 0
    else match throughClosingTag tag text.tail with
      | 0 => 0
      | size => size + 1
  else
    let comment := commentSize text
    let line := blankLine (text.drop comment)
    if line > 0 then comment + line else ruleTagSize text

def mailSize : (ats : Nat) → Bytes → Nat
  | _, [] => 0
  | ats, b :: rest =>
    if isAlnum b || b == dash || b == dot || b == underscore then
      match mailSize ats rest with
      | 0 => 0
      | size => size + 1
    else if b == atSign then
      match mailSize (ats + 1) rest with
      | 0 => 0
      | size => size + 1
    else if b == greater && ats == 1 then 1
    else 0

/-- The length of an address in angle brackets up to the byte that ends it. A
backslash protects the byte after it. -/
def addressLength : (protect : Bool) → Bytes → Nat
  | protect, [] => if protect then 1 else 0
  | true, _ :: rest => addressLength false rest + 1
  | false, b :: rest =>
    if b == backslash then addressLength true rest + 1
    else if b == greater || b == apostrophe || b == quote || isSpace b then 0
    else addressLength false rest + 1

def throughBracket (start : Nat) (text : Bytes) : Nat :=
  match Bytes.find? [greater] (text.drop start) with
  | some offset => start + offset + 1
  | none => start

def tagSize (text : Bytes) : Nat :=
  if text.length < 3 then 0
  else
    let first := if text[1]? == some slash then 2 else 1
    if !(text[first]?.any isAlnum) then 0
    else
      let name := first + count (fun b => isAlnum b || b == dot || b == plus || b == dash) (text.drop first)
      let mail := if text[name]? == some atSign then mailSize 0 (text.drop name) else 0
      if mail > 0 then name + mail
      else if name > 2 && text[name]? == some colon && name + 1 < text.length then
        let stop := name + 1 + addressLength false (text.drop (name + 1))
        if text.length ≤ stop then 0
        else if name + 1 < stop && text[stop]? == some greater then stop + 1
        else throughBracket stop text
      else if name > 2 && text[name]? == some colon then throughBracket (name + 1) text
      else throughBracket name text

def angleSize (text : Bytes) : Nat :=
  let comment := commentSize text
  if comment > 0 then comment else tagSize text

end SqlTidy.Markdown
