import SqlTidy.Markdown.Scan

/-! Definitions of link references: an identifier in brackets, a colon, an address
and perhaps a title. -/
namespace SqlTidy.Markdown
open Ascii

structure Definition where
  id : Bytes
  size : Nat

def opensTitle (b : UInt8) : Bool := b == apostrophe || b == quote || b == openParen

def closesTitle (b : UInt8) : Bool := b == apostrophe || b == quote || b == closeParen

def titleSize (text : Bytes) : Nat :=
  match text with
  | [] => 0
  | b :: rest =>
    let line := lineBody rest
    match (Bytes.dropRightWhile isSpaceOrTab line).reverse with
    | last :: _ :: _ => if opensTitle b && closesTitle last then line.length + 1 else 0
    | _ => 0

def afterAddress (text : Bytes) : Bytes :=
  ((dropOne less text).dropWhile fun b => !(isSpaceOrTab b || b == newline)).dropWhile isSpaceOrTab

def definition? (text : Bytes) : Option Definition :=
  match text.drop (margin text) with
  | [] => none
  | b :: rest =>
    let id := rest.takeWhile fun c => c != newline && c != closeBracket
    match rest.drop id.length with
    | c :: d :: after =>
      let address := (dropOne newline (after.dropWhile isSpaceOrTab)).dropWhile isSpaceOrTab
      if b == openBracket && !id.isEmpty && c == closeBracket && d == colon && !address.isEmpty then
        match afterAddress address with
        | [] => some ⟨id, text.length⟩
        | e :: more =>
          let here := text.length - (more.length + 1)
          if e == newline then
            let next := more.dropWhile isSpaceOrTab
            match titleSize next with
            | 0 => some ⟨id, here⟩
            | size => some ⟨id, text.length - next.length + size⟩
          else match titleSize (e :: more) with
            | 0 => none
            | size => some ⟨id, here + size⟩
      else none
    | _ => none

end SqlTidy.Markdown
