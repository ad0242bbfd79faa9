import SqlTidy.Text.Utf8
import SqlTidy.Text.Ascii

/-! Scalars of YAML: plain ones and those in quotes. Line breaks inside a scalar are
folded: one becomes a space, of several the first is dropped. -/
namespace SqlTidy.Yaml
open Ascii

def isGap (b : UInt8) : Bool := b == space || b == tab

def atGap : Bytes → Bool
  | [] => true
  | b :: _ => isGap b || b == newline

def atMarker (text : Bytes) : Bool :=
  (text.take 3 == [dash, dash, dash] || text.take 3 == [dot, dot, dot]) && atGap (text.drop 3)

def folded (blanks : Bytes) (breaks : Nat) : Bytes :=
  match breaks with
  | 0 => blanks
  | 1 => [space]
  | more + 2 => List.replicate (more + 1) newline

def isFlowMark (b : UInt8) : Bool :=
  b == comma || b == openBracket || b == closeBracket || b == openBrace || b == closeBrace

def colonEnds (flow : Bool) (rest : Bytes) : Bool :=
  atGap rest || (flow && rest.head?.any fun b => isFlowMark b || b == question)

structure Scanned where
  text : Bytes
  crossed : Bool
  column : Nat
  rest : Bytes

def Scanned.before (text : Bytes) (scanned : Scanned) : Scanned := { scanned with text := text ++ scanned.text }

/-- Reads a plain scalar. Its further lines start at column `least` or beyond, unless it
stands in brackets (`flow`). `blanks` and `breaks` hold the white space read since the
last other byte. -/
def plain (flow : Bool) (least : Nat) : (blanks : Bytes) → (breaks column : Nat) → Bytes → Scanned
  | _, breaks, column, [] => ⟨[], breaks != 0, column, []⟩
  | blanks, breaks, column, b :: rest =>
    let stop : Scanned := ⟨[], breaks != 0, column, b :: rest⟩
    if b == newline then plain flow least [] (breaks + 1) 0 rest
    else if isGap b then plain flow least (blanks ++ [b]) breaks (column + 1) rest
    else if breaks != 0 && !flow && column < least then stop
    else if breaks != 0 && column == 0 && atMarker (b :: rest) then stop
    else if b == hash && (breaks != 0 || !blanks.isEmpty) then stop
    else if b == colon && colonEnds flow rest then stop
    else if flow && isFlowMark b then stop
    else (plain flow least [] 0 (column + 1) rest).before (folded blanks breaks ++ [b])

def startsPlain (flow : Bool) : Bytes → Bool
  | [] => false
  | b :: rest =>
    let mark := isFlowMark b || b == hash || b == ampersand || b == star || b == bang || b == bar || b == greater
      || b == apostrophe || b == quote || b == percent || b == atSign || b == backtick
    if b == dash then !atGap rest
    else if b == question || b == colon then !flow && !atGap rest
    else !mark

def single : (blanks : Bytes) → (breaks : Nat) → Bytes → Option (Bytes × Bytes)
  | _, _, [] => none
  | blanks, breaks, 0x27 :: 0x27 :: rest =>
    (single [] 0 rest).map fun (text, rest) => (folded blanks breaks ++ apostrophe :: text, rest)
  | blanks, breaks, 0x27 :: rest => some (folded blanks breaks, rest)
  | blanks, breaks, b :: rest =>
    if b == newline then (if atMarker rest then none else single [] (breaks + 1) rest)
    else if isGap b then single (blanks ++ [b]) breaks rest
    else (single [] 0 rest).map fun (text, rest) => (folded blanks breaks ++ b :: text, rest)

def escape? (b : UInt8) : Option Bytes :=
  if b == 0x30 then some [0]
  else if b == 0x61 then some [7]
  else if b == 0x62 then some [8]
  else if b == 0x74 || b == tab then some [tab]
  else if b == 0x6E then some [newline]
  else if b == 0x76 then some [verticalTab]
  else if b == 0x66 then some [formFeed]
  else if b == 0x72 then some [carriageReturn]
  else if b == 0x65 then some [0x1B]
  else if b == space || b == quote || b == slash || b == backslash || b == apostrophe then some [b]
  else if b == 0x4E then some (utf8 "\u0085")
  else if b == underscore then some (utf8 "\u00a0")
  else if b == 0x4C then some (utf8 "\u2028")
  else if b == 0x50 then some (utf8 "\u2029")
  else none

def codePoint? (digits : Bytes) : Option Bytes := do
  let n ← digits.foldlM (fun n b => (hexValue? b).map (16 * n + ·)) 0
  if n.isValidChar then some (String.utf8EncodeChar (Char.ofNat n)) else none

/-- Reads a scalar in double quotes, the opening one left out. A backslash starts an
escape; at the end of a line it joins the next one without a space. `joined` says that
the blanks at the start of a line are being passed over after such an end. -/
def double : (joined : Bool) → (blanks : Bytes) → (breaks : Nat) → Bytes → Option (Bytes × Bytes)
  | _, _, _, [] => none
  | _, blanks, breaks, 0x22 :: rest => some (folded blanks breaks, rest)
  | _, blanks, breaks, 0x5C :: 0x0A :: rest =>
    (double true [] 0 rest).map fun (text, rest) => (folded blanks breaks ++ text, rest)
  | _, blanks, breaks, 0x5C :: 0x78 :: a :: b :: rest => do
    let c ← codePoint? [a, b]
    (double false [] 0 rest).map fun (text, rest) => (folded blanks breaks ++ c ++ text, rest)
  | _, blanks, breaks, 0x5C :: 0x75 :: a :: b :: c :: d :: rest => do
    let e ← codePoint? [a, b, c, d]
    (double false [] 0 rest).map fun (text, rest) => (folded blanks breaks ++ e ++ text, rest)
  | _, blanks, breaks, 0x5C :: 0x55 :: a :: b :: c :: d :: e :: f :: g :: h :: rest => do
    let i ← codePoint? [a, b, c, d, e, f, g, h]
    (double false [] 0 rest).map fun (text, rest) => (folded blanks breaks ++ i ++ text, rest)
  | _, blanks, breaks, 0x5C :: b :: rest => do
    let c ← escape? b
    (double false [] 0 rest).map fun (text, rest) => (folded blanks breaks ++ c ++ text, rest)
  | joined, blanks, breaks, b :: rest =>
    if b == newline then (if atMarker rest then none else double false [] (breaks + 1) rest)
    else if isGap b then double joined (if joined then [] else blanks ++ [b]) breaks rest
    else (double false [] 0 rest).map fun (text, rest) => (folded blanks breaks ++ b :: text, rest)

end SqlTidy.Yaml
