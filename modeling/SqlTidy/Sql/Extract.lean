import SqlTidy.Markdown.Document
import SqlTidy.Text.Blank

/-! The SQL block of a Markdown answer: the first fenced code block tagged `sql`, else
the first one without a tag. -/
namespace SqlTidy

namespace Markdown.Fence

def language (fence : Fence) : Bytes := lower (firstWord fence.info)

end Markdown.Fence

/-- Walks over fences and ends at the first one tagged `sql`. The first one without a
tag is kept for the case that there is none; `kept` is what was met so far. -/
def chooseFrom (kept : Option Markdown.Fence) : List Markdown.Fence → Option Markdown.Fence
  | [] => kept
  | fence :: rest =>
    if fence.language == utf8 "sql" then some fence
    else if fence.language == [] then chooseFrom (kept.or (some fence)) rest
    else chooseFrom kept rest

def choose (fences : List Markdown.Fence) : Option Markdown.Fence := chooseFrom none fences

def mayHoldFence (text : Bytes) : Bool := Bytes.has (utf8 "```") text || Bytes.has (utf8 "~~~") text

def extract (text : Bytes) : Option Bytes :=
  if mayHoldFence text then (choose (Markdown.fences text)).map fun fence => trim fence.literal
  else none

end SqlTidy
