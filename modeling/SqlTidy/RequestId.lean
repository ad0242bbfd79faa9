import SqlTidy.Text.Ascii
import SqlTidy.Text.Blank

/-! Request identifiers supplied by clients: accepted if they are UUIDs in one of the
usual spellings. -/
namespace SqlTidy.RequestId
open Ascii

def maxLength : Nat := 64

def isHyphenPlace (n : Nat) : Bool := n == 8 || n == 13 || n == 18 || n == 23

def isHyphenated : (place : Nat) → Bytes → Bool
  | _, [] => true
  | place, b :: rest => (if isHyphenPlace place then b == dash else isHex b) && isHyphenated (place + 1) rest

/-- Whether a text spells a UUID. The length decides the spelling: 36 bytes with
hyphens; 45 with a leading `urn:uuid:`; 38 with one byte more at each end, whatever it
is; 32 digits without hyphens. -/
def isUuid (text : Bytes) : Bool :=
  if text.length == 36 then isHyphenated 0 text
  else if text.length == 45 then startsWithFold (utf8 "urn:uuid:") text && isHyphenated 0 (text.drop 9)
  else if text.length == 38 then isHyphenated 0 ((text.drop 1).take 36)
  else if text.length == 32 then text.all isHex
  else false

def isValid (id : Bytes) : Bool :=
  let trimmed := trim id
  !trimmed.isEmpty && trimmed.length ≤ maxLength && isUuid trimmed

end SqlTidy.RequestId
