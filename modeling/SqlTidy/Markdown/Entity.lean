import SqlTidy.Text.Ascii
import SqlTidy.Text.Utf8

/-! Character references and backslash escapes in the info string of a fence. Of
the named references only those that stand for white space are replaced: the info
string is read for its first word, and every other named reference leaves a word
that is neither empty nor a plain language name. -/
namespace SqlTidy.Markdown
open Ascii

def codePage1252 : List Nat :=
  [0x20AC, 0x81, 0x201A, 0x192, 0x201E, 0x2026, 0x2020, 0x2021, 0x2C6, 0x2030, 0x160, 0x2039, 0x152, 0x8D, 0x17D, 0x8F,
   0x90, 0x2018, 0x2019, 0x201C, 0x201D, 0x2022, 0x2013, 0x2014, 0x2DC, 0x2122, 0x161, 0x203A, 0x153, 0x9D, 0x17E, 0x178]

def numericChar (n : Nat) : Char :=
  if 0x80 ≤ n && n ≤ 0x9F then Char.ofNat (codePage1252.getD (n - 0x80) 0xFFFD)
  else if n == 0 || (0xD800 ≤ n && n ≤ 0xDFFF) || 0x10FFFF < n then Char.ofNat 0xFFFD
  else Char.ofNat n

def blankReferences : List (String × List Nat) :=
  [("Tab", [0x09]), ("NewLine", [0x0A]), ("nbsp", [0xA0]), ("NonBreakingSpace", [0xA0]), ("ensp", [0x2002]),
   ("emsp", [0x2003]), ("emsp13", [0x2004]), ("emsp14", [0x2005]), ("numsp", [0x2007]), ("puncsp", [0x2008]),
   ("thinsp", [0x2009]), ("ThinSpace", [0x2009]), ("hairsp", [0x200A]), ("VeryThinSpace", [0x200A]),
   ("MediumSpace", [0x205F]), ("ThickSpace", [0x205F, 0x200A])]

def encodeAll (codes : List Nat) : Bytes :=
  codes.flatMap fun n => String.utf8EncodeChar (Char.ofNat n)

/-- What the reference with this name becomes. A no-break space needs no semicolon,
so that a longer name may begin with it. -/
def namedReference? (name : Bytes) : Option Bytes :=
  match blankReferences.find? (fun entry => utf8 entry.1 == name) with
  | some (_, codes) => some (encodeAll codes)
  | none =>
    if (utf8 "nbsp").isPrefixOf name then some (encodeAll [0xA0] ++ name.drop 4 ++ [semicolon]) else none

def digits? (p : UInt8 → Bool) (text : Bytes) : Option Bytes :=
  let run := text.takeWhile p
  if 1 ≤ run.length && run.length ≤ 8 && (text.drop run.length).head? == some semicolon then some run
  else none

/-- Letters and digits, and the two letters outside ASCII that differ from one of ASCII only in case. -/
def isNameChar (c : Char) : Bool := c.isAlphanum || c.toNat == 0x17F || c.toNat == 0x212A

def name? (text : Bytes) : Option Bytes :=
  let letters := (glyphs text).takeWhile (·.is isNameChar)
  let name := spell letters
  if text.head?.all (!isDigit ·) && 2 ≤ letters.length && letters.length ≤ 32
      && (text.drop name.length).head? == some semicolon then some name
  else none

def numeral (base : Nat) (digits : Bytes) : Nat :=
  digits.foldl (fun sum b => sum * base + (hexValue? b).getD 0) 0

def reference? (text : Bytes) : Option (Nat × Bytes) :=
  match text with
  | [] => none
  | b :: rest =>
    if b == hash then
      match rest with
      | [] => none
      | x :: digits =>
        if x == 0x78 || x == 0x58 then
          (digits? isHex digits).map fun run =>
            (run.length + 3, String.utf8EncodeChar (numericChar (numeral 16 run)))
        else
          (digits? isDigit rest).map fun run =>
            (run.length + 2, String.utf8EncodeChar (numericChar (numeral 10 run)))
    else
      (name? text).bind fun name => (namedReference? name).map fun out => (name.length + 1, out)

def escape? : Bytes → Option (Nat × Bytes)
  | [] => none
  | b :: rest =>
    if b == backslash then
      match rest with
      | [] => none
      | c :: _ => if isPunctuation c then some (2, [c]) else none
    else if b == ampersand then (reference? rest).map fun (size, out) => (size + 1, out)
    else none

def unescapeFrom : Nat → Bytes → Bytes
  | _, [] => []
  | skip + 1, _ :: rest => unescapeFrom skip rest
  | 0, b :: rest =>
    match escape? (b :: rest) with
    | some (size, out) => out ++ unescapeFrom (size - 1) rest
    | none => b :: unescapeFrom 0 rest

def unescape (info : Bytes) : Bytes :=
  if info.contains ampersand then unescapeFrom 0 info else info

end SqlTidy.Markdown
