import SqlTidy.Json.Write
import SqlTidy.Text.Ascii

/-! Requests and responses. -/
namespace SqlTidy.Http
open Ascii

/-- A request as it arrives. `freshId` is the identifier that the request gets if the
client sent none that is accepted. -/
structure Request where
  method : Bytes
  target : Bytes
  headers : List (Bytes × Bytes) := []
  body : Bytes := []
  remote : Bytes
  freshId : Bytes

def Request.header (request : Request) (name : String) : Bytes :=
  match request.headers.find? fun header => sameFold header.1 (utf8 name) with
  | some (_, value) => value
  | none => []

abbrev Headers := List (String × Bytes)

def Headers.set (headers : Headers) (name : String) (value : Bytes) : Headers :=
  headers.filter (·.1 != name) ++ [(name, value)]

structure Response where
  status : Nat
  headers : Headers
  body : Bytes

namespace Response

def json (status : Nat) (headers : Headers) (value : Json) : Response :=
  ⟨status, headers.set "Content-Type" (utf8 "application/json; charset=utf-8"), value.write⟩

def notFound (headers : Headers) : Response :=
  ⟨404, headers.set "Content-Type" (utf8 "text/plain"), utf8 "404 page not found"⟩

end Response
end SqlTidy.Http
