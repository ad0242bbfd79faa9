import SqlTidy.Text.Bytes

/-! Reading UTF-8. A text is cut into glyphs: each is a code point together with
the bytes that encode it, or a single byte that encodes nothing. The bytes of the
glyphs, put together again, are the text. -/
namespace SqlTidy

/-- A piece of a text: a code point, or a stray byte without one. -/
structure Glyph where
  bytes : Bytes
  char? : Option Char
deriving Repr, DecidableEq

namespace Glyph

def stray (b : UInt8) : Glyph := ⟨[b], none⟩

def ofChar (c : Char) : Glyph := ⟨String.utf8EncodeChar c, some c⟩

def is (p : Char → Bool) (g : Glyph) : Bool := g.char?.any p

end Glyph

namespace Utf8

def isContinuation (b : UInt8) : Bool := 0x80 ≤ b && b ≤ 0xBF

def payload (b : UInt8) : Nat := b.toNat - 0x80

def single? (b : UInt8) : Option Char :=
  if b < 0x80 then some (Char.ofNat b.toNat) else none

/-- The code point of two bytes. A lead byte below C2 would only repeat ASCII. -/
def double? (b c : UInt8) : Option Char :=
  if 0xC2 ≤ b && b ≤ 0xDF && isContinuation c then
    some (Char.ofNat ((b.toNat - 0xC0) * 64 + payload c))
  else none

def triple? (b c d : UInt8) : Option Char :=
  let n := (b.toNat - 0xE0) * 4096 + payload c * 64 + payload d
  if 0xE0 ≤ b && b ≤ 0xEF && isContinuation c && isContinuation d
      && 0x800 ≤ n && !(0xD800 ≤ n && n ≤ 0xDFFF) then
    some (Char.ofNat n)
  else none

def quadruple? (b c d e : UInt8) : Option Char :=
  let n := (b.toNat - 0xF0) * 262144 + payload c * 4096 + payload d * 64 + payload e
  if 0xF0 ≤ b && b ≤ 0xF4 && isContinuation c && isContinuation d && isContinuation e
      && 0x10000 ≤ n && n ≤ 0x10FFFF then
    some (Char.ofNat n)
  else none

def head? : Bytes → Option (Nat × Char)
  | [] => none
  | b :: r =>
    match single? b with
    | some x => some (1, x)
    | none => match r with
      | [] => none
      | c :: r => match double? b c with
        | some x => some (2, x)
        | none => match r with
          | [] => none
          | d :: r => match triple? b c d with
            | some x => some (3, x)
            | none => match r with
              | [] => none
              | e :: _ => (quadruple? b c d e).map fun x => (4, x)

def glyphsFrom : Nat → Bytes → List Glyph
  | _, [] => []
  | skip + 1, _ :: rest => glyphsFrom skip rest
  | 0, b :: rest =>
    match head? (b :: rest) with
    | some (size, x) => ⟨b :: rest.take (size - 1), some x⟩ :: glyphsFrom (size - 1) rest
    | none => Glyph.stray b :: glyphsFrom 0 rest

end Utf8

def glyphs (text : Bytes) : List Glyph := Utf8.glyphsFrom 0 text

def spell (row : List Glyph) : Bytes := row.flatMap Glyph.bytes

def isUtf8 (text : Bytes) : Bool := (glyphs text).all fun g => g.char?.isSome

def repair (text : Bytes) : Bytes :=
  (glyphs text).flatMap fun g => if g.char?.isSome then g.bytes else [0xEF, 0xBF, 0xBD]

end SqlTidy
