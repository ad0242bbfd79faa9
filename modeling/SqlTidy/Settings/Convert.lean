import SqlTidy.Number.Word
import SqlTidy.Yaml.Value

/-! Turning the value given for a setting into the type of the setting. -/
namespace SqlTidy.Settings

inductive Cause where
  | unreadable (fault : Integer.Fault)
  | timestamp
  | sequence
  | mapping
deriving Repr, DecidableEq

/-- The value as an integer of 64 bits. Fractions are cut, truth counts as one, and a text
has to spell an integer, unless it is empty. -/
def intOf : Yaml → Except Cause Int
  | .null => .ok 0
  | .bool value => .ok (if value then 1 else 0)
  | .int n => .ok (wrap64 n)
  | .float x => .ok (wholePart x)
  | .string text =>
    if text.isEmpty then .ok 0
    else
      match Integer.signed text with
      | .ok n => .ok n
      | .error fault => .error (.unreadable fault)
  | .timestamp _ => .error .timestamp
  | .sequence _ => .error .sequence
  | .mapping _ => .error .mapping

def textOf : Yaml → Except Cause Bytes
  | .null => .ok []
  | .bool value => .ok (if value then utf8 "1" else utf8 "0")
  | .int n => .ok (Bytes.ofInt n)
  | .float x => .ok (Decimal.write x)
  | .string text => .ok text
  | .timestamp _ => .error .timestamp
  | .sequence _ => .error .sequence
  | .mapping _ => .error .mapping

end SqlTidy.Settings
