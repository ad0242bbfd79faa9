import SqlTidy.Markdown.Fence
import SqlTidy.Text.LowerCase

/-! Links: a label in brackets, then a target in parentheses, or the identifier of a
definition in brackets, or nothing if the label is itself such an identifier. -/
namespace SqlTidy.Markdown
open Ascii

/-- The length of a label up to the bracket that closes it, after the byte `previous`
and with `level` brackets open. A byte after a backslash opens and closes nothing. -/
def labelLength? : (level : Nat) → (previous : UInt8) → Bytes → Option Nat
  | _, _, [] => none
  | level, previous, b :: rest =>
    if b == newline || previous == backslash then (labelLength? level b rest).map (· + 1)
    else if b == openBracket then (labelLength? (level + 1) b rest).map (· + 1)
    else if b == closeBracket then
      if level ≤ 1 then some 0 else (labelLength? (level - 1) b rest).map (· + 1)
    else (labelLength? level b rest).map (· + 1)

def labelId : (previous : UInt8) → Bytes → Bytes
  | _, [] => []
  | previous, b :: rest =>
    if b != newline then b :: labelId b rest
    else if previous != space then space :: labelId b rest
    else labelId b rest

def afterTarget : (skip : Bool) → (depth : Nat) → Bytes → Bytes
  | _, _, [] => []
  | true, depth, _ :: rest => afterTarget false depth rest
  | false, depth, b :: rest =>
    if b == backslash then afterTarget true depth rest
    else if b == openParen then afterTarget false (depth + 1) rest
    else if b == closeParen then
      match depth with
      | 0 => b :: rest
      | depth + 1 => afterTarget false depth rest
    else if b == apostrophe || b == quote then b :: rest
    else afterTarget false depth rest

/-- What follows a title opened by `mark` from the parenthesis on that closes the
target; a parenthesis counts only after the mark has stood once more. -/
def afterTitle (mark : UInt8) : (skip closed : Bool) → Bytes → Bytes
  | _, _, [] => []
  | true, closed, _ :: rest => afterTitle mark false closed rest
  | false, closed, b :: rest =>
    if b == backslash then afterTitle mark true closed rest
    else if b == mark then afterTitle mark false true rest
    else if closed && b == closeParen then b :: rest
    else afterTitle mark false closed rest

def afterParenthesis? (text : Bytes) : Option Bytes :=
  match afterTarget false 0 (text.dropWhile isSpace) with
  | [] => none
  | b :: rest =>
    if b == closeParen then some rest
    else match afterTitle b false false rest with
      | [] => none
      | _ :: rest => some rest

/-- The part of a link after its label: what follows it, if the link is one. `text` is
what stands after the label's closing bracket, and `known` are the identifiers of the
definitions. -/
def afterLink? (known : List Bytes) (label text : Bytes) : Option Bytes :=
  let id := labelId 0 label
  let next := text.dropWhile isSpace
  match next with
  | [] => if known.contains (lower id) then some text else none
  | b :: rest =>
    if b == openParen then afterParenthesis? rest
    else if b == openBracket && !rest.isEmpty && rest.head? != some caret then
      let own := rest.takeWhile (· != closeBracket)
      match rest.drop own.length with
      | [] => none
      | _ :: after => if known.contains (lower (if own.isEmpty then id else own)) then some after else none
    else if known.contains (lower id) then some text
    else none

structure Link where
  label : Bytes
  size : Nat

def link? (known : List Bytes) (text : Bytes) : Option Link :=
  match text with
  | [] => none
  | first :: rest =>
    match labelLength? 1 first rest with
    | none => none
    | some length =>
      let label := rest.take length
      (afterLink? known label (rest.drop (length + 1))).map fun after => ⟨label, text.length - after.length⟩

end SqlTidy.Markdown
