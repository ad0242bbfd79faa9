import SqlTidy.Http.Client
import SqlTidy.Http.Endpoint
import SqlTidy.Http.Redirect
import SqlTidy.RateLimit.Limiter
import SqlTidy.RequestId

/-! The service: endpoints behind a row of stages. A stage may note something for the
stages after it, answer in their place, or log when they are done. -/
namespace SqlTidy.Http

inductive Stage where
  | requestId
  | accessLog
  | bodyLimit
  | rateLimit
deriving Repr, DecidableEq

structure Layout where
  base : Bytes
  everywhere : List Stage
  onTransforms : List Stage
  /-- At most so many bytes of a body are read, unless it is not positive. -/
  maxBytes : Int
  ownLog : Bool

structure Service (α : Type) where
  layout : Layout
  cache : Cache
  limiter : Limiter α

/-- What the stages before have noted. `log` is the log of the request, given by the
fields that its entries have in common. -/
structure Notes where
  headers : Headers := []
  id : Option Bytes := none
  log : Option (List (String × Log.Value)) := none
  limited : Bool := false

structure Answer (α : Type) where
  response : Response
  logs : List Log.Entry
  service : Service α

namespace Layout

def standard (limited : Bool) (maxBytes : Int) : Layout where
  base := utf8 "/v1/sql"
  everywhere := [.requestId, .accessLog]
  onTransforms := if limited then [.bodyLimit, .rateLimit] else [.bodyLimit]
  maxBytes
  ownLog := true

def pathOf (layout : Layout) (endpoint : Endpoint) : Bytes :=
  if endpoint.isTransform then layout.base ++ utf8 endpoint.name else utf8 endpoint.name

def find? (layout : Layout) (method path : Bytes) : Option Endpoint :=
  Endpoint.all.find? fun endpoint => endpoint.method == method && layout.pathOf endpoint == path

def redirects (layout : Layout) (method path : Bytes) : Bool :=
  path.getLast? == some Ascii.slash && (layout.find? method path.dropLast).isSome

def stages (layout : Layout) (endpoint : Option Endpoint) : List Stage :=
  if endpoint.any (·.isTransform) then layout.everywhere ++ layout.onTransforms else layout.everywhere

def limit? (layout : Layout) : Option Nat :=
  if layout.maxBytes > 0 then some layout.maxBytes.toNat else none

end Layout

def loggedPath (layout : Layout) (endpoint : Option Endpoint) : Bytes :=
  match endpoint with
  | some endpoint => layout.pathOf endpoint
  | none => []

def Request.id (request : Request) : Bytes :=
  let own := trim (request.header "X-Request-ID")
  if RequestId.isValid own then own else request.freshId

namespace Notes

/-- The entries as they are written: to the log of the request if there is one, else to
the log of the endpoints if they have one. -/
def written (notes : Notes) (ownLog : Bool) (entries : List Log.Entry) : List Log.Entry :=
  match notes.log with
  | some fields => entries.map (·.within fields)
  | none => if ownLog then entries else []

def withId (notes : Notes) (id : Bytes) : Notes :=
  { notes with id := some id, headers := notes.headers.set "X-Request-Id" id }

def withLog (notes : Notes) : Notes :=
  { notes with log := some (notes.id.toList.map fun id => ("request_id", .text id)) }

def withStanding (notes : Notes) (remaining limit : Int) : Notes :=
  { notes with
    headers := (notes.headers.set "X-Ratelimit-Limit" (Bytes.ofInt limit)).set
      "X-Ratelimit-Remaining" (Bytes.ofInt remaining) }

end Notes

def completedEntry (method path : Bytes) (status : Nat) : Log.Entry where
  level := .debug
  message := "Request completed"
  fields := [("method", .text method), ("path", .text path), ("status", .int status)]

def refusedEntry (client : Client) (limit : Int) : Log.Entry where
  level := .warn
  message := "Rate limit exceeded"
  fields := [("client", .text client), ("limit", .int limit)]

def refusal (notes : Notes) (remaining limit : Int) : Response :=
  .json 429 (notes.headers.set "Retry-After" (utf8 "60"))
    (Reply.object 429 [("error", Json.ofString "rate limit exceeded"), ("limit", Json.ofInt limit),
      ("remaining", Json.ofInt remaining), ("retry_after", Json.ofInt 60)]).value

namespace Service

variable {α : Type} [Tokens α]

def serve (service : Service α) (request : Request) (endpoint : Option Endpoint) (notes : Notes) : Answer α :=
  match endpoint with
  | none => ⟨.notFound notes.headers, [], service⟩
  | some endpoint =>
    let limit := if notes.limited then service.layout.limit? else none
    let outcome := endpoint.run (service.layout.pathOf endpoint) limit request.body service.cache
    ⟨.json outcome.reply.status notes.headers outcome.reply.value,
      notes.written service.layout.ownLog outcome.logs, { service with cache := outcome.cache }⟩

def pass (request : Request) (endpoint : Option Endpoint) :
    List Stage → Notes → Service α → Answer α
  | [], notes, service => service.serve request endpoint notes
  | .requestId :: rest, notes, service => pass request endpoint rest (notes.withId request.id) service
  | .bodyLimit :: rest, notes, service => pass request endpoint rest { notes with limited := true } service
  | .accessLog :: rest, notes, service =>
    let logged := notes.withLog
    let answer := pass request endpoint rest logged service
    let entry := completedEntry request.method (loggedPath service.layout endpoint) answer.response.status
    { answer with logs := answer.logs ++ logged.written false [entry] }
  | .rateLimit :: rest, notes, service =>
    let client := request.client
    let (allowed, limiter) := service.limiter.allow client
    let (remaining, limit) := limiter.standing client
    let counted := notes.withStanding remaining limit
    let service := { service with limiter }
    if allowed then pass request endpoint rest counted service
    else ⟨refusal counted remaining limit, notes.written false [refusedEntry client limit], service⟩

/-- Answers a request. A redirection is answered before any stage. -/
def handle (service : Service α) (request : Request) : Answer α :=
  let layout := service.layout
  if layout.redirects request.method request.path then ⟨request.redirection, [], service⟩
  else
    let endpoint := layout.find? request.method request.path
    pass request endpoint (layout.stages endpoint) {} service

def sleep (service : Service α) (ns : Nat) : List Log.Entry × Service α :=
  let (cleanups, limiter) := service.limiter.sleep ns
  (cleanups.map (·.entry), { service with limiter })

def standard (cache : Cache) (settings : Limiter.Settings) (maxBytes : Int) : Service α where
  layout := .standard (settings.requestsPerMinute > 0) maxBytes
  cache
  limiter := { settings }

def custom (stages : List Stage) (settings : Limiter.Settings) (maxBytes : Int) (ownLog : Bool) : Service α where
  layout := { base := [], everywhere := stages, onTransforms := [], maxBytes, ownLog }
  cache := Cache.disabled
  limiter := { settings }

end Service
end SqlTidy.Http
