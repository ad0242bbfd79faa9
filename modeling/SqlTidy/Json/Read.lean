import SqlTidy.Json.Value
import SqlTidy.Text.Ascii
import SqlTidy.Text.Utf8

/-! Reading JSON from the start of a stream. Reading stops at the end of the first
value; it tells a text that can never become a value from one that merely ends too
soon. -/
namespace SqlTidy.Json
open Ascii

/-- What reading finds: a value and the bytes after it, a byte that no value allows
at its place, or the end of the text inside a value. -/
inductive Reading (α : Type) where
  | done (value : α) (rest : Bytes)
  | malformed
  | incomplete

namespace Reading

def map {α β : Type} (f : α → β) : Reading α → Reading β
  | .done value rest => .done (f value) rest
  | .malformed => .malformed
  | .incomplete => .incomplete

def bind {α β : Type} (reading : Reading α) (next : α → Bytes → Reading β) : Reading β :=
  match reading with
  | .done value rest => next value rest
  | .malformed => .malformed
  | .incomplete => .incomplete

end Reading

def maxDepth : Nat := 10000

def isSpace (b : UInt8) : Bool := b == space || b == tab || b == carriageReturn || b == newline

def skipSpace (text : Bytes) : Bytes := text.dropWhile isSpace

inductive Piece where
  | byte (b : UInt8)
  | code (n : Nat)

def escaped? (b : UInt8) : Option UInt8 :=
  if b == quote || b == backslash || b == slash then some b
  else if b == 0x62 then some 0x08
  else if b == 0x66 then some formFeed
  else if b == 0x6E then some newline
  else if b == 0x72 then some carriageReturn
  else if b == 0x74 then some tab
  else none

def hex4? (a b c d : UInt8) : Option Nat := do
  return (((← hexValue? a) * 16 + (← hexValue? b)) * 16 + (← hexValue? c)) * 16 + (← hexValue? d)

def readPieces : Bytes → Reading (List Piece)
  | [] => .incomplete
  | b :: rest =>
    if b == quote then .done [] rest
    else if b == backslash then
      match rest with
      | [] => .incomplete
      | e :: rest =>
        if e == 0x75 then
          match rest with
          | h₁ :: h₂ :: h₃ :: h₄ :: rest =>
            match hex4? h₁ h₂ h₃ h₄ with
            | some n => (readPieces rest).map (Piece.code n :: ·)
            | none => .malformed
          | short => if short.all isHex then .incomplete else .malformed
        else match escaped? e with
          | some x => (readPieces rest).map (Piece.byte x :: ·)
          | none => .malformed
    else if b < 0x20 then .malformed
    else (readPieces rest).map (Piece.byte b :: ·)

def isHighSurrogate (n : Nat) : Bool := 0xD800 ≤ n && n ≤ 0xDBFF

def isLowSurrogate (n : Nat) : Bool := 0xDC00 ≤ n && n ≤ 0xDFFF

def encodeCode (n : Nat) : Bytes :=
  String.utf8EncodeChar (Char.ofNat (if isHighSurrogate n || isLowSurrogate n then 0xFFFD else n))

/-- The bytes of the pieces after a high surrogate `held`, if there is one. Two escapes
that form a surrogate pair are one code point; a lone surrogate gives U+FFFD. -/
def assembleAfter : Option Nat → List Piece → Bytes
  | none, [] => []
  | some high, [] => encodeCode high
  | none, .byte b :: rest => b :: assembleAfter none rest
  | some high, .byte b :: rest => encodeCode high ++ b :: assembleAfter none rest
  | none, .code n :: rest =>
    if isHighSurrogate n then assembleAfter (some n) rest else encodeCode n ++ assembleAfter none rest
  | some high, .code n :: rest =>
    if isLowSurrogate n then
      encodeCode (0x10000 + (high - 0xD800) * 1024 + (n - 0xDC00)) ++ assembleAfter none rest
    else if isHighSurrogate n then encodeCode high ++ assembleAfter (some n) rest
    else encodeCode high ++ encodeCode n ++ assembleAfter none rest

def assemble (pieces : List Piece) : Bytes := assembleAfter none pieces

def readString (text : Bytes) : Reading Bytes :=
  (readPieces text).map fun pieces => repair (assemble pieces)

def readDigits (text : Bytes) : Reading Bytes :=
  match text with
  | [] => .incomplete
  | b :: _ => if isDigit b then .done (text.takeWhile isDigit) (text.dropWhile isDigit) else .malformed

def readWhole : Bytes → Reading Bytes
  | [] => .incomplete
  | b :: rest => if b == zero then .done [b] rest else readDigits (b :: rest)

def readFraction : Bytes → Reading Bytes
  | dot :: rest => (readDigits rest).map (dot :: ·)
  | text => .done [] text

def readExponent : Bytes → Reading Bytes
  | [] => .done [] []
  | b :: rest =>
    if b == 0x65 || b == 0x45 then
      match rest with
      | [] => .incomplete
      | sign :: more =>
        if sign == plus || sign == dash then (readDigits more).map (b :: sign :: ·)
        else (readDigits rest).map (b :: ·)
    else .done [] (b :: rest)

def readUnsigned (text : Bytes) : Reading Bytes :=
  (readWhole text).bind fun whole rest =>
    (readFraction rest).bind fun fraction rest =>
      (readExponent rest).map fun exponent => whole ++ fraction ++ exponent

def readNumber : Bytes → Reading Bytes
  | dash :: rest => (readUnsigned rest).map (dash :: ·)
  | text => readUnsigned text

def readWord (value : Json) : Bytes → Bytes → Reading Json
  | [], text => .done value text
  | _ :: _, [] => .incomplete
  | w :: word, b :: rest => if w == b then readWord value word rest else .malformed

mutual

/-- The value that a text begins with. `fuel` bounds the number of values and
separators read, `depth` is the number of containers around it. -/
def readValue (fuel depth : Nat) (text : Bytes) : Reading Json :=
  match fuel with
  | 0 => .incomplete
  | fuel + 1 =>
    match skipSpace text with
    | [] => .incomplete
    | b :: rest =>
      if b == quote then (readString rest).map .string
      else if b == openBrace then
        if maxDepth ≤ depth then .malformed
        else match skipSpace rest with
          | [] => .incomplete
          | c :: after =>
            if c == closeBrace then .done (.object []) after
            else (readMembers fuel (depth + 1) (c :: after)).map .object
      else if b == openBracket then
        if maxDepth ≤ depth then .malformed
        else match skipSpace rest with
          | [] => .incomplete
          | c :: after =>
            if c == closeBracket then .done (.array []) after
            else (readElements fuel (depth + 1) (c :: after)).map .array
      else if b == 0x74 then readWord (.bool true) (utf8 "rue") rest
      else if b == 0x66 then readWord (.bool false) (utf8 "alse") rest
      else if b == 0x6E then readWord .null (utf8 "ull") rest
      else if b == dash || isDigit b then (readNumber (b :: rest)).map .number
      else .malformed

def readElements (fuel depth : Nat) (text : Bytes) : Reading (List Json) :=
  match fuel with
  | 0 => .incomplete
  | fuel + 1 =>
    (readValue fuel depth text).bind fun value rest =>
      match skipSpace rest with
      | [] => .incomplete
      | b :: rest =>
        if b == comma then (readElements fuel depth rest).map (value :: ·)
        else if b == closeBracket then .done [value] rest
        else .malformed

def readMembers (fuel depth : Nat) (text : Bytes) : Reading (List (Bytes × Json)) :=
  match fuel with
  | 0 => .incomplete
  | fuel + 1 =>
    match skipSpace text with
    | [] => .incomplete
    | b :: rest =>
      if b == quote then
        (readString rest).bind fun key rest =>
          match skipSpace rest with
          | [] => .incomplete
          | b :: rest =>
            if b == colon then
              (readValue fuel depth rest).bind fun value rest =>
                match skipSpace rest with
                | [] => .incomplete
                | b :: rest =>
                  if b == comma then (readMembers fuel depth rest).map ((key, value) :: ·)
                  else if b == closeBrace then .done [(key, value)] rest
                  else .malformed
            else .malformed
      else .malformed

end

def read (text : Bytes) : Reading Json := readValue (2 * text.length + 2) 0 text

def ofText? (text : Bytes) : Option Json :=
  match read text with
  | .done value rest => if (skipSpace rest).isEmpty then some value else none
  | _ => none

end SqlTidy.Json
