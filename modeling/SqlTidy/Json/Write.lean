import SqlTidy.Json.Value
import SqlTidy.Text.Ascii
import SqlTidy.Text.Utf8

/-! Writing JSON: no white space, members in the order given. Characters that are
unsafe inside HTML and the two line separators of Unicode are written as escapes. -/
namespace SqlTidy.Json
open Ascii

def unicodeEscape (n : Nat) : Bytes :=
  [backslash, 0x75, hexDigit (n / 4096 % 16), hexDigit (n / 256 % 16), hexDigit (n / 16 % 16), hexDigit (n % 16)]

def escapeAscii (b : UInt8) : Bytes :=
  if b == quote || b == backslash then [backslash, b]
  else if b == 0x08 then [backslash, 0x62]
  else if b == formFeed then [backslash, 0x66]
  else if b == newline then [backslash, 0x6E]
  else if b == carriageReturn then [backslash, 0x72]
  else if b == tab then [backslash, 0x74]
  else if b < 0x20 || b == less || b == greater || b == ampersand then unicodeEscape b.toNat
  else [b]

def escapeGlyph (g : Glyph) : Bytes :=
  match g.char? with
  | none => unicodeEscape 0xFFFD
  | some c =>
    if c.toNat < 0x80 then g.bytes.flatMap escapeAscii
    else if c.toNat == 0x2028 || c.toNat == 0x2029 then unicodeEscape c.toNat
    else g.bytes

def writeString (text : Bytes) : Bytes :=
  quote :: (glyphs text).flatMap escapeGlyph ++ [quote]

mutual

def write : Json → Bytes
  | .null => utf8 "null"
  | .bool true => utf8 "true"
  | .bool false => utf8 "false"
  | .number spelling => spelling
  | .string text => writeString text
  | .array elements => openBracket :: writeElements elements ++ [closeBracket]
  | .object members => openBrace :: writeMembers members ++ [closeBrace]

def writeElements : List Json → Bytes
  | [] => []
  | [v] => write v
  | v :: rest => write v ++ comma :: writeElements rest

def writeMembers : List (Bytes × Json) → Bytes
  | [] => []
  | [(key, v)] => writeString key ++ colon :: write v
  | (key, v) :: rest => writeString key ++ colon :: write v ++ comma :: writeMembers rest

end

end SqlTidy.Json
