import SqlTidy.Text.Ascii

/-! Identifier quotes: from backticks to double quotes. -/
namespace SqlTidy

def addQuotes (sql : Bytes) : Bytes :=
  sql.map fun b => if b == Ascii.backtick then Ascii.quote else b

end SqlTidy
