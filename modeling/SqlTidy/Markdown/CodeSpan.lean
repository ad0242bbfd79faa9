import SqlTidy.Markdown.Fence

/-! Code spans: text between two runs of backticks of the same length. A span of
three backticks that covers a newline, with nothing else after it on its line, is
taken for a fenced code block. -/
namespace SqlTidy.Markdown
open Ascii

/-- The position after the first `wanted` adjacent backticks. `run` of them stand
directly before the text, which begins at `position`. -/
def closeRun (wanted : Nat) : (run position : Nat) → Bytes → Nat
  | run, position, [] => if run < wanted then 0 else position
  | run, position, b :: rest =>
    if wanted ≤ run then position
    else closeRun wanted (if b == backtick then run + 1 else 0) (position + 1) rest

def codeSpanSize (text : Bytes) : Nat :=
  let run := count (· == backtick) text
  if run == 0 then 0 else closeRun run 0 run (text.drop run)

def codeSpan (text : Bytes) : List Fence × Nat :=
  let size := codeSpanSize text
  let run := count (· == backtick) text
  let inner := (text.take (size - run)).drop run
  let code := dropFinalSpaces (dropSpaces inner)
  let alone := (lineBody (text.drop size)).all isSpace
  if run == 3 && !code.isEmpty && inner.contains newline && alone then
    match info? code with
    | some (info, literal) => ([⟨info, literal⟩], size)
    | none => ([⟨[], code⟩], size)
  else ([], size)

end SqlTidy.Markdown
