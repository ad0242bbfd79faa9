import SqlTidy.Cli.Run

/-! The program: its arguments, streams and files. -/
namespace SqlTidy.Cli

partial def drain (stream : IO.FS.Stream) (held : ByteArray) : IO ByteArray := do
  let chunk ← stream.read 65536
  if chunk.isEmpty then return held else drain stream (held ++ chunk)

def pathFault : IO.Error → PathFault
  | .noFileOrDirectory .. => .missing
  | .inappropriateType _ code _ => if code == 21 then .isDirectory else .notDirectory
  | _ => .invalid

def survey : Plan → IO World
  | .transform _ _ .standard => do
    match ← (drain (← IO.getStdin) ByteArray.empty).toBaseIO with
    | .ok bytes => return { input := bytes.data.toList }
    | .error reason => return { inputFault := some (utf8 (toString reason)) }
  | .transform _ _ (.file path) => do
    let name := (String.fromUTF8? (ByteArray.mk path.toArray)).getD ""
    match ← (IO.FS.readBinFile name).toBaseIO with
    | .ok bytes => return { file := fun _ => .ok bytes.data.toList }
    | .error reason => return { file := fun _ => .error (pathFault reason) }
  | _ => return {}

end SqlTidy.Cli

def main (arguments : List String) : IO UInt32 := do
  let plan := SqlTidy.Cli.plan (arguments.map SqlTidy.utf8)
  let report := (← SqlTidy.Cli.survey plan).perform plan
  (← IO.getStdout).write (ByteArray.mk report.output.toArray)
  (← IO.getStderr).write (ByteArray.mk report.errors.toArray)
  return UInt32.ofNat report.status
