import SqlTidy.Text.Blank
import SqlTidy.Text.LowerCase

/-! Log levels and structured log entries. -/
namespace SqlTidy

namespace Log

inductive Level where
  | debug
  | info
  | warn
  | error
deriving Repr, DecidableEq

namespace Level

def name : Level → String
  | debug => "debug"
  | info => "info"
  | warn => "warn"
  | error => "error"

def ofName (name : Bytes) : Level :=
  if name == utf8 "debug" then debug
  else if name == utf8 "warn" || name == utf8 "warning" then warn
  else if name == utf8 "error" then error
  else info

def ofSetting (setting : Bytes) : Level := ofName (lower (trim setting))

end Level

inductive Value where
  | text (text : Bytes)
  | int (n : Int)
  | bool (b : Bool)
deriving Repr, DecidableEq

structure Entry where
  level : Level
  message : String
  fields : List (String × Value) := []
deriving Repr, DecidableEq

def Entry.within (entry : Entry) (fields : List (String × Value)) : Entry :=
  { entry with fields := fields ++ entry.fields }

end Log
end SqlTidy
