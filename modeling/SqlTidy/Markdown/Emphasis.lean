import SqlTidy.Markdown.Fence
import SqlTidy.Text.Punctuation
import SqlTidy.Text.Utf8

/-! Emphasis: text between one, two or three marks of a kind. What is emphasised is
read for inline constructs of its own. -/
namespace SqlTidy.Markdown
open Ascii

/-- Where the search for a closing mark stands: in plain text, in a code span, in the
label of a link, between a label and its target, or in a target. All but the first
remember the position of a mark met inside, zero if none was. -/
inductive Search where
  | plain
  | code (met : Nat)
  | label (met : Nat)
  | gap (met : Nat)
  | target (closer : UInt8) (met : Nat)

def Search.met : Search → Nat
  | .plain => 0
  | .code met => met
  | .label met => met
  | .gap met => met
  | .target _ met => met

def plainStep (mark b : UInt8) : Option Search :=
  if b == mark then none
  else if b == backtick then some (.code 0)
  else if b == openBracket then some (.label 0)
  else some .plain

/-- The position of the next mark that stands outside code spans and links, counted
from `position`; zero if there is none. In a code span or link that is not complete
the first mark inside counts. -/
def findMark (mark : UInt8) : (search : Search) → (previous : UInt8) → (position : Nat) → Bytes → Nat
  | search, _, _, [] => search.met
  | search, previous, position, b :: rest =>
    let note (met : Nat) : Nat := if met == 0 && b == mark then position else met
    match search with
    | .plain =>
      if previous == backslash then findMark mark .plain b (position + 1) rest
      else match plainStep mark b with
        | none => position
        | some next => findMark mark next b (position + 1) rest
    | .code met =>
      if b == backtick then findMark mark .plain b (position + 1) rest
      else findMark mark (.code (note met)) b (position + 1) rest
    | .label met =>
      if b == closeBracket then findMark mark (.gap met) b (position + 1) rest
      else findMark mark (.label (note met)) b (position + 1) rest
    | .gap met =>
      if b == space || b == newline then findMark mark (.gap met) b (position + 1) rest
      else if b == openBracket || b == openParen then findMark mark (.target b met) b (position + 1) rest
      else if met > 0 then met
      else match plainStep mark b with
        | none => position
        | some next => findMark mark next b (position + 1) rest
    | .target closer met =>
      if b == closer then findMark mark .plain b (position + 1) rest
      else if met == 0 && b == mark then position
      else findMark mark (.target closer met) b (position + 1) rest

def nextMark (mark : UInt8) (text : Bytes) : Nat := findMark mark .plain 0 0 text

def startsWithPunctuation (text : Bytes) : Bool :=
  text.head?.any isPunctuation || (Utf8.head? text).any fun (_, c) => isPunctuationMark c

def isSpaceAt (text : Bytes) (position : Nat) : Bool := text[position]?.any isSpace

def endsWord (rest : Bytes) : Bool :=
  rest.isEmpty || rest.head?.any isSpace || startsWithPunctuation rest

def singleFrom (inner : Bytes → List Fence) (mark : UInt8) (text : Bytes) : (fuel here : Nat) → List Fence × Nat
  | 0, _ => ([], 0)
  | fuel + 1, here =>
    let step := nextMark mark (text.drop here)
    let at_ := here + step
    if text.length ≤ at_ then ([], 0)
    else if text[at_ + 1]? == some mark then singleFrom inner mark text fuel (at_ + 2)
    else if text[at_]? == some mark && !isSpaceAt text (at_ - 1) && endsWord (text.drop (at_ + 1)) then
      (inner (text.take at_), at_ + 1)
    else if step == 0 then ([], 0)
    else singleFrom inner mark text fuel at_

def single (inner : Bytes → List Fence) (mark : UInt8) (text : Bytes) : List Fence × Nat :=
  let start := if text[0]? == some mark && text[1]? == some mark then 2 else 0
  singleFrom inner mark text (text.length + 1) start

def doubleFrom (inner : Bytes → List Fence) (mark : UInt8) (text : Bytes) : (fuel here : Nat) → List Fence × Nat
  | 0, _ => ([], 0)
  | fuel + 1, here =>
    let step := nextMark mark (text.drop here)
    let at_ := here + step
    if step == 0 then ([], 0)
    else if text[at_]? == some mark && text[at_ + 1]? == some mark && !isSpaceAt text (at_ - 1) then
      (inner (text.take at_), at_ + 2)
    else doubleFrom inner mark text fuel (at_ + 1)

def double (inner : Bytes → List Fence) (mark : UInt8) (text : Bytes) : List Fence × Nat :=
  doubleFrom inner mark text (text.length + 1) 0

def extend (found : List Fence × Nat) (more : Nat) : List Fence × Nat :=
  if found.2 == 0 then ([], 0) else (found.1, found.2 + more)

/-- Emphasis that begins with three marks. It may end with three, or with two or one,
and then the rest of the marks belongs to the text. -/
def triple (inner : Bytes → List Fence) (mark : UInt8) (whole : Bytes) : List Fence × Nat :=
  let text := whole.drop 3
  let at_ := nextMark mark text
  if at_ == 0 || isSpaceAt text (at_ - 1) then ([], 0)
  else if text[at_ + 1]? == some mark then
    if text[at_ + 2]? == some mark then (inner (text.take at_), at_ + 6)
    else extend (single inner mark (whole.drop 1)) 1
  else extend (double inner mark (whole.drop 2)) 2

def emphasis (inner : Bytes → List Fence) (text : Bytes) : List Fence × Nat :=
  match text with
  | mark :: b :: c :: rest =>
    if b != mark then
      if isSpace b then ([], 0) else extend (single inner mark (b :: c :: rest)) 1
    else if c != mark then
      if rest.isEmpty || isSpace c then ([], 0) else extend (double inner mark (c :: rest)) 2
    else match rest with
      | d :: _ :: _ => if d == mark || mark == tilde || isSpace d then ([], 0) else triple inner mark text
      | _ => ([], 0)
  | _ => ([], 0)

end SqlTidy.Markdown
