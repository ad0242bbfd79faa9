import SqlTidy.Text.Blank
import SqlTidy.Text.Digit

/-! Removal of a trailing LIMIT clause. A clause is optional white space, the word
LIMIT in any case, white space, decimal digits, and an ending: at most one
semicolon amid white space, then nothing or a comment up to the end. It counts
only at the end of the statement. -/
namespace SqlTidy.Limit

def isLetter (upper : Char) (g : Glyph) : Bool := g.is fun c => c == upper || c == upper.toLower

def afterKeyword? : List Glyph → Option (List Glyph)
  | l :: i :: m :: j :: t :: rest =>
    if isLetter 'L' l && isLetter 'I' i && isLetter 'M' m && isLetter 'I' j && isLetter 'T' t then
      some rest
    else none
  | _ => none

def afterRun? (p : Glyph → Bool) : List Glyph → Option (List Glyph)
  | [] => none
  | g :: rest => if p g then some (rest.dropWhile p) else none

def dropSemicolon : List Glyph → List Glyph
  | [] => []
  | g :: rest => if g.is (· == ';') then rest else g :: rest

def isComment : List Glyph → Bool
  | [] => true
  | a :: b :: rest => a.is (· == '-') && b.is (· == '-') && rest.all fun g => !g.is (· == '\n')
  | _ => false

def isEnding (row : List Glyph) : Bool :=
  isComment ((dropSemicolon (row.dropWhile Glyph.isBlank)).dropWhile Glyph.isBlank)

def isClause (row : List Glyph) : Bool :=
  match (afterKeyword? (row.dropWhile Glyph.isBlank)).bind (afterRun? Glyph.isBlank) with
  | none => false
  | some rest => match afterRun? Glyph.isDecimal rest with
    | none => false
    | some ending => isEnding ending

/-- The row up to the longest clause that ends it. -/
def cut : List Glyph → List Glyph
  | [] => []
  | g :: rest => if isClause (g :: rest) then [] else g :: cut rest

end SqlTidy.Limit

namespace SqlTidy

def removeLimit (sql : Bytes) : Bytes := spell (Limit.cut (glyphs sql))

end SqlTidy
