import SqlTidy.Number.Decimal
import SqlTidy.Number.Integer
import SqlTidy.Yaml.Timestamp

/-! The values of a YAML document, and what a plain scalar stands for. -/
namespace SqlTidy
open Ascii

inductive Yaml where
  | null
  | bool (value : Bool)
  | int (n : Int)
  | float (x : Float)
  | string (text : Bytes)
  | timestamp (text : Bytes)
  | sequence (items : List Yaml)
  | mapping (members : List (Bytes × Yaml))

namespace Yaml

def word? (text : Bytes) : Option Yaml :=
  let among (words : List String) : Bool := words.any fun word => utf8 word == text
  if among ["", "~", "null", "Null", "NULL"] then some .null
  else if among ["true", "True", "TRUE"] then some (.bool true)
  else if among ["false", "False", "FALSE"] then some (.bool false)
  else if among [".nan", ".NaN", ".NAN"] then some (.float (0.0 / 0.0))
  else if among [".inf", ".Inf", ".INF", "+.inf", "+.Inf", "+.INF"] then some (.float (1.0 / 0.0))
  else if among ["-.inf", "-.Inf", "-.INF"] then some (.float (-1.0 / 0.0))
  else none

/-- The number that a text stands for. Underscores do not count; integers with sign fit
64 bits, those without may also fill them. -/
def number? (text : Bytes) : Option Yaml :=
  let digits := text.filter (· != underscore)
  match Integer.signed digits with
  | .ok n => some (.int n)
  | .error _ =>
    match Integer.unsigned digits with
    | .ok n => some (.int n)
    | .error _ => (Decimal.toFloat? digits).map .float

def ofPlain (text : Bytes) : Yaml :=
  match word? text with
  | some value => value
  | none =>
    match text with
    | [] => .null
    | b :: _ =>
      let value :=
        if b == dot then (Decimal.toFloat? text).map .float
        else if Timestamp.isTimestamp text then some (.timestamp text)
        else if isDigit b || b == plus || b == dash then number? text
        else none
      value.getD (.string text)

end Yaml
end SqlTidy
