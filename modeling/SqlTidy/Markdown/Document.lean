import SqlTidy.Markdown.Block
import SqlTidy.Markdown.Span

/-! The fenced code blocks of a Markdown document, in document order. -/
namespace SqlTidy.Markdown

def maxLevels : Nat := 64

def definedIds (pieces : List Item) : List Bytes :=
  pieces.filterMap fun
    | .definition id => some (lower id)
    | _ => none

/-- The fences of the pieces of a document. Texts know every definition of the document,
captions only those that stand before them. -/
def piecesFences (all : List Bytes) : (before : List Bytes) → List Item → List Fence
  | _, [] => []
  | before, .fence fence :: rest => fence :: piecesFences all before rest
  | before, .text text :: rest => spans all maxLevels false text ++ piecesFences all before rest
  | before, .caption levels text :: rest => spans before levels false text ++ piecesFences all before rest
  | before, .definition id :: rest => piecesFences all (lower id :: before) rest

def fences (document : Bytes) : List Fence :=
  let pieces := pieces maxLevels (normalizeNewlines document)
  piecesFences (definedIds pieces) [] pieces

end SqlTidy.Markdown
