import SqlTidy.Http.Message
import SqlTidy.Net.HostPort
import SqlTidy.Net.Ip
import SqlTidy.Text.Blank

/-! Who sent a request. Proxies are believed: they put the address of the client into a
header. -/
namespace SqlTidy.Http
open Ascii

/-- The first address of a list with commas, as spelled there, if all of them are IP
addresses. -/
def forwarded? (header : Bytes) : Option Bytes :=
  let items := (Bytes.split comma header).map trim
  if items.all fun item => (Ip.ofText? item).isSome then items.head? else none

def Request.peer? (request : Request) : Option Ip :=
  match HostPort.ofText (trim request.remote) with
  | .ok address => Ip.ofText? address.host
  | .error _ => none

/-- The address that a request counts for, empty if the connection has none. -/
def Request.client (request : Request) : Bytes :=
  match request.peer? with
  | none => []
  | some peer =>
    (forwarded? (request.header "X-Forwarded-For")
      <|> forwarded? (request.header "X-Real-IP")).getD peer.write

end SqlTidy.Http
