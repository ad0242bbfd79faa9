import SqlTidy.Http.Target

/-! Redirection of a known path with one slash too many. -/
namespace SqlTidy.Http
open Ascii

/-- What a proxy says it cut from the front of the path: letters, digits, dashes and
slashes are kept. Nothing if it cut nothing. -/
def Request.mount? (request : Request) : Option Bytes :=
  let cleaned := cleanPath (request.header "X-Forwarded-Prefix")
  if cleaned == [dot] then none
  else some (singleSlashes (cleaned.filter fun b => isAlnum b || b == slash || b == dash))

def Request.destination (request : Request) : Bytes :=
  let path := match request.mount? with
    | some mount => mount ++ slash :: request.path
    | none => request.path
  path.dropLast

def namesHost (path : Bytes) : Bool :=
  path.take 2 == [slash, slash] && path.take 3 != [slash, slash, slash]

def Request.location (request : Request) : Bytes :=
  let path := request.destination
  if namesHost path then path ++ request.query
  else if path.head? == some slash then cleanPath path ++ request.query
  else
    let folder := Bytes.dropRightWhile (· != slash) path
    cleanPath (folder ++ path) ++ request.query

/-- The response that sends a client to the path without its last slash. A GET request
gets a permanent redirection and a page with a link. -/
def Request.redirection (request : Request) : Response :=
  let location := request.location
  let headers : Headers := [("Location", escapeNonAscii location)]
  if request.method == utf8 "GET" then
    ⟨301, headers.set "Content-Type" (utf8 "text/html; charset=utf-8"),
      utf8 "<a href=\"" ++ escapeHtml location ++ utf8 "\">Moved Permanently</a>.\n\n"⟩
  else ⟨307, headers, []⟩

end SqlTidy.Http
