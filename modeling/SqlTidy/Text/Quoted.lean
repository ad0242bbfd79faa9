import SqlTidy.Text.Ascii
import SqlTidy.Text.Printable

/-! Text shown in quotes: what is not printable is written as an escape. -/
namespace SqlTidy
open Ascii

def hexadecimal (width n : Nat) : Bytes :=
  let digits := (Nat.toDigits 16 n).flatMap String.utf8EncodeChar
  List.replicate (width - digits.length) zero ++ digits

def shortEscape? (n : Nat) : Option UInt8 :=
  match n with
  | 0x07 => some 0x61
  | 0x08 => some 0x62
  | 0x09 => some 0x74
  | 0x0A => some 0x6E
  | 0x0B => some 0x76
  | 0x0C => some 0x66
  | 0x0D => some 0x72
  | _ => none

def escapedChar (mark : UInt8) (c : Char) : Bytes :=
  let n := c.toNat
  if n == mark.toNat || n == backslash.toNat then backslash :: String.utf8EncodeChar c
  else if isPrintable c then String.utf8EncodeChar c
  else
    match shortEscape? n with
    | some letter => [backslash, letter]
    | none =>
      if n < 0x20 || n == 0x7F then utf8 "\\x" ++ hexadecimal 2 n
      else if n < 0x10000 then utf8 "\\u" ++ hexadecimal 4 n
      else utf8 "\\U" ++ hexadecimal 8 n

def Glyph.escaped (g : Glyph) : Bytes :=
  match g.char? with
  | some c => escapedChar quote c
  | none => utf8 "\\x" ++ g.bytes.flatMap fun b => hexadecimal 2 b.toNat

def quoted (text : Bytes) : Bytes := quote :: (glyphs text).flatMap Glyph.escaped ++ [quote]

def quotedChar (c : Char) : Bytes := apostrophe :: escapedChar apostrophe c ++ [apostrophe]

def suitsBackticks (c : Char) : Bool :=
  let n := c.toNat
  n != backtick.toNat && n != 0x7F && n != 0xFEFF && (0x20 ≤ n || n == 0x09)

def backticked (text : Bytes) : Bytes :=
  if (glyphs text).all (·.is suitsBackticks) then backtick :: text ++ [backtick] else quoted text

end SqlTidy
