import SqlTidy.Number.Word
import SqlTidy.Text.Ascii

/-! Integers as people write them in settings: decimal, or with a leading `0x`, `0b`,
`0o` or plain `0` for another base, and with underscores between digits. -/
namespace SqlTidy.Integer
open Ascii

inductive Fault where
  | malformed
  | outOfRange
deriving Repr, DecidableEq

def Fault.message : Fault → Bytes
  | malformed => utf8 "invalid syntax"
  | outOfRange => utf8 "value out of range"

def baseOf? (letter : UInt8) : Option Nat :=
  if toLower letter == 0x62 then some 2
  else if toLower letter == 0x6F then some 8
  else if toLower letter == 0x78 then some 16
  else none

/-- The base of a number without sign, and the digits after what names the base. A letter
names a base only if something follows it. -/
def baseAndDigits : Bytes → Nat × Bytes
  | 0x30 :: letter :: b :: rest =>
    match baseOf? letter with
    | some base => (base, b :: rest)
    | none => (8, letter :: b :: rest)
  | 0x30 :: rest => (8, rest)
  | text => (10, text)

def digit? (base : Nat) (b : UInt8) : Option Nat :=
  let value :=
    if isDigit b then b.toNat - zero.toNat
    else if isLetter b then (toLower b).toNat - 0x61 + 10
    else base
  if value < base then some value else none

def accumulate (base : Nat) : Nat → Bytes → Except Fault Nat
  | n, [] => .ok n
  | n, b :: rest =>
    if b == underscore then accumulate base n rest
    else
      match digit? base b with
      | none => .error .malformed
      | some d => if base * n + d < wordCount then accumulate base (base * n + d) rest else .error .outOfRange

def underscoresFit : (afterDigit : Bool) → Bytes → Bool
  | _, [] => true
  | afterDigit, b :: rest =>
    if b == underscore then afterDigit && rest.head?.any (· != underscore) && underscoresFit false rest
    else underscoresFit true rest

/-- Whether the underscores of a number without sign stand where they may: between digits,
or right after what names the base. -/
def underscoresAllowed (text : Bytes) : Bool :=
  match text with
  | 0x30 :: letter :: rest => if (baseOf? letter).isSome then underscoresFit true rest else underscoresFit false text
  | _ => underscoresFit false text

def unsigned (text : Bytes) : Except Fault Nat :=
  if text.isEmpty then .error .malformed
  else
    let (base, digits) := baseAndDigits text
    match accumulate base 0 digits with
    | .ok n => if underscoresAllowed text then .ok n else .error .malformed
    | .error fault => .error fault

def signed (text : Bytes) : Except Fault Int :=
  match text with
  | 0x2D :: rest => (unsigned rest).bind fun n => if n ≤ signedLimit then .ok (-(n : Int)) else .error .outOfRange
  | 0x2B :: rest => (unsigned rest).bind fun n => if n < signedLimit then .ok n else .error .outOfRange
  | _ => (unsigned text).bind fun n => if n < signedLimit then .ok n else .error .outOfRange

end SqlTidy.Integer
