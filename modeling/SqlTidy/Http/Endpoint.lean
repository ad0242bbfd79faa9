import SqlTidy.Failure
import SqlTidy.Http.Body
import SqlTidy.Http.Message
import SqlTidy.Log
import SqlTidy.Sql.Cache

/-! What the service offers: a report on its health, and four transforms of SQL text. -/
namespace SqlTidy.Http

inductive Endpoint where
  | health
  | clean
  | removeLimit
  | addQuotes
  | sanitize
deriving Repr, DecidableEq

structure Reply where
  status : Nat
  value : Json

namespace Reply

def object (status : Nat) (members : List (String × Json)) : Reply :=
  ⟨status, .object (members.map fun member => (utf8 member.1, member.2))⟩

def ofFault : BodyFault → Reply
  | .invalid => object 400 [("error", Json.ofString "invalid request body")]
  | .tooLarge _ => object 413 [("error", Json.ofString "request body too large")]

def sql (text : Bytes) : Reply := object 200 [("sql", .string text)]

def quoted (text : Bytes) : Reply := object 200 [("sql", .string text), ("error", .string [])]

def sanitized (result : Result) : Reply :=
  object 200 [("sql", .string result.sql), ("error", .string []), ("extracted", .bool result.extracted)]

def health (cache : Cache) : Reply :=
  object 200 [("status", Json.ofString "ok"), ("cache_size", Json.ofNat cache.size),
    ("cache_hits", Json.ofNat cache.hits), ("cache_misses", Json.ofNat cache.misses)]

end Reply

def BodyFault.failure : BodyFault → Failure
  | invalid => .invalidInput
  | tooLarge limit => .under (Format.message (utf8 "request body over %d bytes") [.int limit]) .payloadTooLarge

def BodyFault.logs (path : Bytes) (fault : BodyFault) : List Log.Entry :=
  if fault.failure.isPayloadTooLarge then
    [{ level := .error, message := "Request failed",
       fields := [("path", .text path), ("error", .text fault.failure.text)] }]
  else []

def sanitizedEntry (text : Bytes) (result : Result) : Log.Entry where
  level := .debug
  message := "Sanitized generation result"
  fields := [("input_length", .int text.length), ("output_length", .int result.sql.length),
    ("extracted", .bool result.extracted)]

structure Outcome where
  reply : Reply
  logs : List Log.Entry := []
  cache : Cache

namespace Endpoint

def method : Endpoint → Bytes
  | health => utf8 "GET"
  | _ => utf8 "POST"

def name : Endpoint → String
  | health => "/health"
  | clean => "/clean"
  | removeLimit => "/remove-limit"
  | addQuotes => "/add-quotes"
  | sanitize => "/sanitize"

def all : List Endpoint := [health, clean, removeLimit, addQuotes, sanitize]

def isTransform (endpoint : Endpoint) : Bool := endpoint != health

def transformed (path : Bytes) (cache : Cache) (reply : Bytes → Reply) : Except BodyFault Bytes → Outcome
  | .ok text => { reply := reply text, cache }
  | .error fault => { reply := .ofFault fault, logs := fault.logs path, cache }

/-- Runs an endpoint on a body of which at most `limit` bytes are read; `path` is the
path that it was reached by. -/
def run (endpoint : Endpoint) (path : Bytes) (limit : Option Nat) (body : Bytes) (cache : Cache) : Outcome :=
  match endpoint with
  | health => { reply := .health cache, cache }
  | clean => transformed path cache (fun text => .sql (SqlTidy.clean text)) (decodeBody limit (textBody? "text") body)
  | removeLimit =>
    transformed path cache (fun sql => .sql (SqlTidy.removeLimit sql)) (decodeBody limit (textBody? "sql") body)
  | addQuotes =>
    transformed path cache (fun sql => .quoted (SqlTidy.addQuotes sql)) (decodeBody limit (textBody? "sql") body)
  | sanitize =>
    match decodeBody limit sanitizeBody? body with
    | .error fault => { reply := .ofFault fault, logs := fault.logs path, cache }
    | .ok (text, options) =>
      let (result, cache) := cache.sanitize options text
      { reply := .sanitized result, logs := [sanitizedEntry text result], cache }

end Endpoint
end SqlTidy.Http
