import SqlTidy.Text.Bytes

/-! JSON values. Strings are bytes; numbers keep their spelling, so that no value is
rounded; objects keep every member in the order written, repeated keys included. -/
namespace SqlTidy

inductive Json where
  | null
  | bool (value : Bool)
  | number (spelling : Bytes)
  | string (text : Bytes)
  | array (elements : List Json)
  | object (members : List (Bytes × Json))

namespace Json

def ofInt (n : Int) : Json := .number (Bytes.ofInt n)

def ofNat (n : Nat) : Json := .number (Bytes.ofNat n)

def ofString (s : String) : Json := .string (utf8 s)

/-- Arrays and objects: the values whose last byte shows that they are complete. -/
def isContainer : Json → Bool
  | .array _ => true
  | .object _ => true
  | _ => false

end Json
end SqlTidy
