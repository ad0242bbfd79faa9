import SqlTidy.Json.Read
import SqlTidy.Sql.Sanitize
import SqlTidy.Text.Ascii

/-! The bodies of requests: one JSON object, of which at most so many bytes are read. -/
namespace SqlTidy.Http
open Ascii

inductive BodyFault where
  | invalid
  | tooLarge (limit : Nat)
deriving Repr, DecidableEq

/-- Reads one JSON value from the start of a body. What follows the value is not looked
at. The body is too large if the value is not complete within the limit and there is
more; a value without a closing bracket is complete only when something follows it. -/
def readBody (limit : Option Nat) (body : Bytes) : Except BodyFault Json :=
  let visible := match limit with
    | some limit => body.take limit
    | none => body
  let short : BodyFault := match limit with
    | some limit => if limit < body.length then .tooLarge limit else .invalid
    | none => .invalid
  match Json.read visible with
  | .done value rest =>
    if value.isContainer || !rest.isEmpty || short == .invalid then .ok value else .error short
  | .malformed => .error .invalid
  | .incomplete => .error short

/-- A letter of a key, without regard to case. Two letters outside ASCII count as the
letters whose case variants they are. -/
def foldGlyph (g : Glyph) : Bytes :=
  if g.is (·.toNat == 0x17F) then utf8 "s"
  else if g.is (·.toNat == 0x212A) then utf8 "k"
  else g.bytes.map toLower

def isKeyOf (name : String) (key : Bytes) : Bool := (glyphs key).flatMap foldGlyph == utf8 name

def valuesOf (name : String) (members : List (Bytes × Json)) : List Json :=
  (members.filter fun member => isKeyOf name member.1).map (·.2)

def asText? : Json → Option (Option Bytes)
  | .string text => some (some text)
  | .null => some none
  | _ => none

def asFlag? (flag : Bool) : Json → Option Bool
  | .bool value => some value
  | .null => some flag
  | _ => none

/-- The text of a field that must be there: the last one given counts, and each has to be
a text or null. -/
def textField? (name : String) (members : List (Bytes × Json)) : Option Bytes := do
  let texts ← (valuesOf name members).mapM asText?
  texts.getLast?.join

def flagField? (name : String) (members : List (Bytes × Json)) : Option Bool :=
  (valuesOf name members).foldlM asFlag? false

def textBody? (name : String) : Json → Option Bytes
  | .object members => textField? name members
  | _ => none

def sanitizeBody? : Json → Option (Bytes × Options)
  | .object members => do
    let text ← textField? "text" members
    let options : Options := {
      extract := ← flagField? "extract_code_block" members
      removeLimit := ← flagField? "remove_limit" members
      addQuotes := ← flagField? "add_quotes" members }
    return (text, options)
  | _ => none

def decodeBody {α : Type} (limit : Option Nat) (decode : Json → Option α) (body : Bytes) : Except BodyFault α :=
  match readBody limit body with
  | .error fault => .error fault
  | .ok value =>
    match decode value with
    | some result => .ok result
    | none => .error .invalid

end SqlTidy.Http
