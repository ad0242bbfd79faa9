import SqlTidy.Text.Utf8

/-! White space: the code points with the Unicode property White_Space. Trimming,
splitting into words and the white space of SQL statements all use this class. -/
namespace SqlTidy

def isBlank (c : Char) : Bool :=
  let n := c.toNat
  (9 ≤ n && n ≤ 13) || n == 0x20 || n == 0x85 || n == 0xA0 || n == 0x1680 ||
    (0x2000 ≤ n && n ≤ 0x200A) || n == 0x2028 || n == 0x2029 || n == 0x202F ||
    n == 0x205F || n == 0x3000

def Glyph.isBlank (g : Glyph) : Bool := g.is SqlTidy.isBlank

def trimRow (row : List Glyph) : List Glyph :=
  ((row.dropWhile Glyph.isBlank).reverse.dropWhile Glyph.isBlank).reverse

def trim (text : Bytes) : Bytes := spell (trimRow (glyphs text))

def firstWord (text : Bytes) : Bytes :=
  spell (((glyphs text).dropWhile Glyph.isBlank).takeWhile fun g => !g.isBlank)

end SqlTidy
