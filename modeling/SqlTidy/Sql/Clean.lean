import SqlTidy.Text.Blank

/-! Cleaning of generated SQL. Runs of white space become one space each, then the
markers that language models put around a statement are removed, one kind after
the other, and the ends are trimmed.

White space is collapsed before any marker is removed, so a marker between two
spaces leaves both of them. -/
namespace SqlTidy

/-- What cleaning removes, in this order: the fences with a language before the bare
fence, so that no language name stays behind. -/
def markers : List Bytes :=
  [utf8 "```sql", utf8 "```json", utf8 "\"\"\"", utf8 "'''", utf8 "```", utf8 ";"]

def collapse : List Glyph → List Glyph
  | [] => []
  | g :: rest =>
    if g.isBlank then
      match rest with
      | [] => [Glyph.ofChar ' ']
      | next :: _ => if next.isBlank then collapse rest else Glyph.ofChar ' ' :: collapse rest
    else g :: collapse rest

/-- The text without the occurrences of `marker`, taken from the left and never
overlapping. The first `skip` bytes are dropped: they belong to an occurrence. -/
def eraseFrom (marker : Bytes) : Nat → Bytes → Bytes
  | _, [] => []
  | skip + 1, _ :: rest => eraseFrom marker skip rest
  | 0, b :: rest =>
    if marker.isPrefixOf (b :: rest) then eraseFrom marker (marker.length - 1) rest
    else b :: eraseFrom marker 0 rest

def erase (marker text : Bytes) : Bytes := eraseFrom marker 0 text

def strip (text : Bytes) : Bytes := markers.foldl (fun left marker => erase marker left) text

def clean (text : Bytes) : Bytes := trim (strip (spell (collapse (glyphs text))))

end SqlTidy
