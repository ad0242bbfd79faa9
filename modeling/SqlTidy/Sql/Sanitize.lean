import SqlTidy.Sql.Clean
import SqlTidy.Sql.Extract
import SqlTidy.Sql.Limit
import SqlTidy.Sql.Quotes

/-! The whole treatment of a generated answer: take the SQL block, clean it, cut a
trailing LIMIT clause, quote identifiers. Cleaning always runs, the rest on request. -/
namespace SqlTidy

structure Options where
  extract : Bool := false
  removeLimit : Bool := false
  addQuotes : Bool := false
deriving Repr, DecidableEq

structure Result where
  sql : Bytes
  extracted : Bool
deriving Repr, DecidableEq

def Options.block? (options : Options) (text : Bytes) : Option Bytes :=
  if options.extract then SqlTidy.extract text else none

/-- What follows cleaning: the clause is cut before identifiers are quoted. -/
def Options.finish (options : Options) (sql : Bytes) : Bytes :=
  let cut := if options.removeLimit then SqlTidy.removeLimit sql else sql
  if options.addQuotes then SqlTidy.addQuotes cut else cut

def sanitize (options : Options) (text : Bytes) : Result :=
  let block := options.block? text
  ⟨options.finish (clean (block.getD text)), block.isSome⟩

end SqlTidy
