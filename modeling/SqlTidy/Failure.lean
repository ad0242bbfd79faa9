import SqlTidy.Text.Ascii
import SqlTidy.Text.Utf8

/-! Failures of the service around the text transforms. A failure has a cause, which
may be one of three known ones, and messages put before it on the way up. Each message is
put into the text by formatting. -/
namespace SqlTidy
open Ascii

inductive Argument where
  | text (text : Bytes)
  | int (n : Int)
  | bool (b : Bool)

namespace Argument

def typeName : Argument → Bytes
  | text _ => utf8 "string"
  | int _ => utf8 "int64"
  | bool _ => utf8 "bool"

def spelling : Argument → Bytes
  | text t => t
  | int n => Bytes.ofInt n
  | bool true => utf8 "true"
  | bool false => utf8 "false"

def suits (letter : Bytes) : Argument → Bool
  | text _ => letter == utf8 "s" || letter == utf8 "v"
  | int _ => letter == utf8 "d" || letter == utf8 "v"
  | bool _ => letter == utf8 "t" || letter == utf8 "v"

def described (argument : Argument) : Bytes := argument.typeName ++ equals :: argument.spelling

end Argument

namespace Format

def directive (letter : Bytes) : Option Argument → Bytes
  | none => utf8 "%!" ++ letter ++ utf8 "(MISSING)"
  | some argument =>
    if argument.suits letter then argument.spelling
    else utf8 "%!" ++ letter ++ openParen :: argument.described ++ [closeParen]

def surplus (arguments : List Argument) : Bytes :=
  if arguments.isEmpty then []
  else utf8 "%!(EXTRA " ++ Bytes.join (utf8 ", ") (arguments.map Argument.described) ++ [closeParen]

/-- The message that a pattern makes of some values. A percent sign and a letter take
the next value; two percent signs stand for one. Widths and flags are not known. `armed`
says that a percent sign was just read. -/
def fill : (armed : Bool) → List Glyph → List Argument → Bytes
  | false, [], arguments => surplus arguments
  | true, [], arguments => utf8 "%!(NOVERB)" ++ surplus arguments
  | false, g :: rest, arguments =>
    if g.bytes == [percent] then fill true rest arguments else g.bytes ++ fill false rest arguments
  | true, g :: rest, arguments =>
    if g.bytes == [percent] then percent :: fill false rest arguments
    else directive g.bytes arguments.head? ++ fill false rest arguments.tail

def message (pattern : Bytes) (arguments : List Argument) : Bytes := fill false (glyphs pattern) arguments

end Format

inductive Failure.Cause where
  | invalidInput
  | payloadTooLarge
  | rateLimited
deriving Repr, DecidableEq

/-- A failure is one of the known causes, or it was made elsewhere. Such a one has a text, may
pass itself off as a known cause, and has any number of failures below it. -/
inductive Failure where
  | known (cause : Failure.Cause)
  | made (text : Bytes) (claims : Failure.Cause → Bool) (causes : List Failure)

namespace Failure

def invalidInput : Failure := known .invalidInput

def payloadTooLarge : Failure := known .payloadTooLarge

def rateLimited : Failure := known .rateLimited

def other (text : Bytes) : Failure := made text (fun _ => false) []

def text : Failure → Bytes
  | known .invalidInput => utf8 "invalid input"
  | known .payloadTooLarge => utf8 "payload too large"
  | known .rateLimited => utf8 "rate limit exceeded"
  | made text _ _ => text

def under (message : Bytes) (cause : Failure) : Failure :=
  made (Format.message (utf8 "%s: %v") [.text message, .text cause.text]) (fun _ => false) [cause]

mutual

def is (cause : Cause) : Failure → Bool
  | known other => other == cause
  | made _ claims causes => claims cause || anyIs cause causes

def anyIs (cause : Cause) : List Failure → Bool
  | [] => false
  | failure :: failures => is cause failure || anyIs cause failures

end

def isInvalidInput (failure : Failure) : Bool := failure.is .invalidInput

def isPayloadTooLarge (failure : Failure) : Bool := failure.is .payloadTooLarge

def isRateLimited (failure : Failure) : Bool := failure.is .rateLimited

def wrap (message : Bytes) (failure : Option Failure) : Option Failure := failure.map (under message)

def wrapWith {α : Type} (format : Bytes → List α → Bytes) (pattern : Bytes) (arguments : List α)
    (failure : Option Failure) : Option Failure :=
  wrap (format pattern arguments) failure

def wrapFormatted (pattern : Bytes) (arguments : List Argument) (failure : Option Failure) : Option Failure :=
  wrapWith Format.message pattern arguments failure

end Failure
end SqlTidy
