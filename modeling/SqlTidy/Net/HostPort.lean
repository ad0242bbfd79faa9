import SqlTidy.Text.Ascii

/-! Network addresses written as a host and a port with a colon between them. A host
with colons in it stands in brackets. -/
namespace SqlTidy
open Ascii

structure HostPort where
  host : Bytes
  port : Bytes
deriving Repr, DecidableEq

namespace HostPort

inductive Fault where
  | missingPort
  | tooManyColons
  | missingBracket
  | unexpectedOpening
  | unexpectedClosing
deriving Repr, DecidableEq

def Fault.message : Fault → Bytes
  | missingPort => utf8 "missing port in address"
  | tooManyColons => utf8 "too many colons in address"
  | missingBracket => utf8 "missing ']' in address"
  | unexpectedOpening => utf8 "unexpected '[' in address"
  | unexpectedClosing => utf8 "unexpected ']' in address"

def splitLast? : Bytes → Option (Bytes × Bytes)
  | [] => none
  | b :: rest =>
    match splitLast? rest with
    | some (before, after) => some (b :: before, after)
    | none => if b == colon then some ([], rest) else none

def unbracketed (host port : Bytes) : Except Fault HostPort :=
  if (host ++ port).contains openBracket then .error .unexpectedOpening
  else if port.contains closeBracket then .error .unexpectedClosing
  else .ok ⟨host, port⟩

/-- An address whose host is in brackets; `inner` is what follows the opening one. The
closing bracket must stand right before the last colon. -/
def ofBracketed (inner port : Bytes) : Except Fault HostPort :=
  let host := inner.takeWhile (· != closeBracket)
  match inner.dropWhile (· != closeBracket) with
  | [] => .error .missingBracket
  | [_] => .error .missingPort
  | _ :: b :: rest =>
    if b != colon then .error .missingPort
    else if rest != port then .error .tooManyColons
    else unbracketed host port

def ofPlain (host port : Bytes) : Except Fault HostPort :=
  if host.contains colon then .error .tooManyColons
  else if (host ++ port).contains openBracket then .error .unexpectedOpening
  else if (host ++ port).contains closeBracket then .error .unexpectedClosing
  else .ok ⟨host, port⟩

def ofText (text : Bytes) : Except Fault HostPort :=
  match splitLast? text with
  | none => .error .missingPort
  | some (before, port) =>
    match text with
    | 0x5B :: inner => ofBracketed inner port
    | _ => ofPlain before port

end HostPort
end SqlTidy
