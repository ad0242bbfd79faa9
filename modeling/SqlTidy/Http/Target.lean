import SqlTidy.Http.Message

/-! The target of a request: a path with percent escapes, then possibly a query. -/
namespace SqlTidy.Http
open Ascii

def unescape : Bytes → Bytes
  | 0x25 :: a :: b :: rest =>
    match hexValue? a, hexValue? b with
    | some high, some low => UInt8.ofNat (16 * high + low) :: unescape rest
    | _, _ => percent :: unescape (a :: b :: rest)
  | b :: rest => b :: unescape rest
  | [] => []
termination_by text => text.length

def Request.path (request : Request) : Bytes := unescape (request.target.takeWhile (· != question))

def Request.query (request : Request) : Bytes := request.target.dropWhile (· != question)

/-- One step along a path: an empty segment and a single dot stay, two dots go back.
Segments are held last first. -/
def follow (rooted : Bool) (held : List Bytes) (segment : Bytes) : List Bytes :=
  if segment.isEmpty || segment == [dot] then held
  else if segment == [dot, dot] then
    match held with
    | last :: rest => if last == [dot, dot] then segment :: held else rest
    | [] => if rooted then [] else [segment]
  else segment :: held

def cleanPath (path : Bytes) : Bytes :=
  let rooted := path.head? == some slash
  let segments := ((Bytes.split slash path).foldl (follow rooted) []).reverse
  let joined := Bytes.join [slash] segments
  if rooted then slash :: joined
  else if joined.isEmpty then [dot]
  else joined

def singleSlashes : Bytes → Bytes
  | 0x2F :: 0x2F :: rest => singleSlashes (slash :: rest)
  | b :: rest => b :: singleSlashes rest
  | [] => []

def escapeNonAscii (text : Bytes) : Bytes :=
  text.flatMap fun b =>
    if b < 0x80 then [b] else [percent, hexDigit (b.toNat / 16), hexDigit (b.toNat % 16)]

def escapeHtml (text : Bytes) : Bytes :=
  text.flatMap fun b =>
    if b == ampersand then utf8 "&amp;"
    else if b == less then utf8 "&lt;"
    else if b == greater then utf8 "&gt;"
    else if b == quote then utf8 "&#34;"
    else if b == apostrophe then utf8 "&#39;"
    else [b]

end SqlTidy.Http
