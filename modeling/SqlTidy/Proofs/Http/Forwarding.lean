import SqlTidy.Proofs.Http.Admission

/-! Limits and forwarding headers. A client is kept to its rate, but which client a request
counts for is what its headers say, once the connection has an address at all. A peer
that names others in its headers is therefore not kept to the rate, in any setup. -/
namespace SqlTidy.Http

/-- The address that the headers of a request name. -/
def Request.named? (request : Request) : Option Bytes :=
  forwarded? (request.header "X-Forwarded-For") <|> forwarded? (request.header "X-Real-IP")

theorem Request.client_eq (request : Request) :
    request.client = match request.peer? with
      | none => []
      | some peer => request.named?.getD peer.write := rfl

theorem Request.peer?_congr (left right : Request) (same : left.remote = right.remote) : left.peer? = right.peer? := by
  simp only [peer?,same]

/-- A request for a transform that names an address. -/
def Request.naming (name : String) (remote : Bytes) : Request where
  method := utf8 "POST"
  target := utf8 "/v1/sql/clean"
  headers := [(utf8 "X-Forwarded-For",utf8 name)]
  body := utf8 "\x7b\"text\":\"a\"\x7d"
  remote
  freshId := []

theorem Request.naming_asks (name : String) (remote : Bytes) : (naming name remote).asksTransform = true := by
  change asksTransform { method := utf8 "POST", target := utf8 "/v1/sql/clean", remote := [], freshId := [] } = true
  decide +kernel

theorem Request.naming_client (name : String) (remote : Bytes) (peer : Ip)
    (connected : (naming name remote).peer? = some peer) (address : forwarded? (utf8 name) = some (utf8 name)) :
    (naming name remote).client = utf8 name := by
  have header : (naming name remote).header "X-Forwarded-For" = utf8 name := by
    have same : Ascii.sameFold (utf8 "X-Forwarded-For") (utf8 "X-Forwarded-For") = true := by decide +kernel
    simp [Request.header,naming,same]
  rw [client_eq,connected,named?,header,address]
  rfl

end SqlTidy.Http

namespace SqlTidy.Limiter

theorem Agree.after_allows {other : Client} {left right : Limiter Rat} (agree : Agree other left right)
    (distinct : left.Distinct) (client : Client) (different : client ≠ other) (count : Nat) :
    Agree other (left.after (List.replicate count (.allow client))) right := by
  have foreign : (Event.allow client).concerns other = false := by
    simpa [Event.concerns,Event.client?] using different
  induction count generalizing left with
  | zero => exact agree
  | succ count ih => exact ih (agree.step_other distinct _ foreign) (distinct_step left distinct _)

end SqlTidy.Limiter

namespace SqlTidy.Http.Service
open Limiter

theorem passTimes_append (service : Service Rat) (counted : Request → Bool) (first second : List Event) :
    service.passTimes counted (first ++ second) =
      service.passTimes counted first ++ (service.after first).passTimes counted second :=
  timesCounted_append ..

theorem passTimes_congr (service : Service Rat) (left right : Request → Bool) (events : List Event)
    (alike : ∀ request, .request request ∈ events → left request = right request) :
    service.passTimes left events = service.passTimes right events := by
  refine timesCounted_congr _ _ _ _ fun service event member => ?_
  cases event with
  | sleep ns => rfl
  | request request => rw [passesAs,passesAs,alike request member]

theorem passTimes_of_client (service : Service Rat) (maxBytes : Int) (layout : service.layout = .standard true maxBytes)
    (client : Client) (events : List Event) (own : ∀ request, .request request ∈ events → request.client = client) :
    service.passTimes (fun _ => true) events = service.limiter.grantTimes client (service.trace events) := by
  rw [← passTimes_client service maxBytes layout client events]
  apply passTimes_congr
  intro request member
  simp [own request member]

theorem trace_replicate (service : Service Rat) (request : Request) (asks : request.asksTransform = true)
    (count : Nat) :
    service.trace (List.replicate count (.request request)) = List.replicate count (.allow request.client) := by
  induction count generalizing service with
  | zero => rfl
  | succ count ih => simp [List.replicate_succ,trace,calls,asks,ih]

/-- As many requests pass at once as the client has tokens. -/
theorem passTimes_replicate (service : Service Rat) (maxBytes : Int) (layout : service.layout = .standard true maxBytes)
    (distinct : service.limiter.Distinct) (request : Request) (asks : request.asksTransform = true) (count : Nat)
    (enough : (count : Rat) ≤ service.limiter.level request.client) :
    service.passTimes (fun _ => true) (List.replicate count (.request request)) =
      List.replicate count service.limiter.now := by
  have own : ∀ other, .request other ∈ List.replicate count (Event.request request) → other.client = request.client := by
    intro other member
    rw [Event.request.inj (List.eq_of_mem_replicate member)]
  rw [passTimes_of_client service maxBytes layout request.client _ own,trace_replicate service request asks]
  exact grantTimes_allows service.limiter distinct request.client count enough

/-- A burst under each of two names passes in a moment. -/
theorem passTimes_two_names (service : Service Rat) (maxBytes : Int) (layout : service.layout = .standard true maxBytes)
    (fresh : service.limiter = { settings := service.limiter.settings }) (first second : Request)
    (firstAsks : first.asksTransform = true) (secondAsks : second.asksTransform = true)
    (different : first.client ≠ second.client) :
    let burst := service.limiter.settings.burst
    service.passTimes (fun _ => true)
        (List.replicate burst (.request first) ++ List.replicate burst (.request second)) =
      List.replicate (burst + burst) 0 := by
  intro burst
  have distinct : service.limiter.Distinct := by
    rw [fresh]
    exact distinct_fresh _
  have untouched (client : Client) : service.limiter.level client = burst := by
    refine level_of_none _ _ ?_
    rw [fresh]
    rfl
  let drained := service.after (List.replicate burst (.request first))
  have limiter : drained.limiter = service.limiter.after (List.replicate burst (.allow first.client)) := by
    rw [← trace_replicate service first firstAsks]
    exact after_limiter service maxBytes layout _
  have unseen : Agree second.client drained.limiter service.limiter := by
    rw [limiter]
    exact Agree.after_allows ⟨rfl,rfl,rfl,rfl⟩ distinct _ different _
  have start : service.limiter.now = 0 := by rw [fresh]
  have left := passTimes_replicate service maxBytes layout distinct first firstAsks burst (untouched _).ge
  have right := passTimes_replicate drained maxBytes ((after_layout service _).trans layout)
    (by rw [limiter]; exact distinct_after _ distinct _) second secondAsks burst
    (by rw [unseen.level]; exact (untouched _).ge)
  rw [unseen.now] at right
  rw [passTimes_append,left,right,start,List.replicate_append_replicate]

end SqlTidy.Http.Service

namespace SqlTidy.Http
open Limiter

/-- Of the requests that are counted no more pass in any window than a burst and what the
rate yields meanwhile. -/
def Setup.Bounds (setup : Setup) (counted : Request → Bool) (events : List Event) : Prop :=
  ∀ start length : Rat, 0 ≤ length →
    (within start length ((setup.service : Service Rat).passTimes counted events) : Rat) ≤
      setup.limits.burst + setup.limits.requestsPerMinute * length / 60

/-- The rate is kept in every history of requests from one remote address, whatever their
headers are. -/
def Setup.KeepsRate (setup : Setup) (remote : Bytes) : Prop :=
  ∀ events, (∀ request, .request request ∈ events → request.remote = remote) → setup.Bounds (fun _ => true) events

namespace Setup

theorem service_layout (setup : Setup) (limited : 0 < setup.limits.requestsPerMinute) :
    (setup.service : Service Rat).layout = .standard true setup.maxBytes := by
  simp [service,Service.standard,limited]

theorem bounds_client (setup : Setup) (limited : 0 < setup.limits.requestsPerMinute)
    (refills : setup.limits.Refills) (client : Client) (events : List Event) :
    setup.Bounds (·.client == client) events := by
  intro start length forward
  have steady : 0 ≤ setup.limits.rate := by
    have positive : (0 : Rat) < setup.limits.requestsPerMinute := by exact_mod_cast limited
    rw [Settings.rate_eq]
    positivity
  have sound : Sound (setup.service : Service Rat).limiter := sound_fresh setup.limits steady
  have bound := (within_le_allowance _ sound client refills start length forward
    ((setup.service : Service Rat).trace events)).trans (sound.allowance_le client start length forward)
  rw [← Service.passTimes_client _ _ (setup.service_layout limited)] at bound
  change _ ≤ (setup.limits.burst : Rat) + length * setup.limits.rate at bound
  rw [Settings.rate_eq] at bound
  linarith

theorem bounds_of_one_client (setup : Setup) (limited : 0 < setup.limits.requestsPerMinute)
    (refills : setup.limits.Refills) (client : Client) (events : List Event)
    (own : ∀ request, .request request ∈ events → request.client = client) :
    setup.Bounds (fun _ => true) events := by
  intro start length forward
  have bound := setup.bounds_client limited refills client events start length forward
  rw [Service.passTimes_congr _ _ (fun _ => true) events (by simpa using own)] at bound
  exact bound

theorem not_keepsRate (setup : Setup) (limited : 0 < setup.limits.requestsPerMinute)
    (request : Request) (peer : Ip) (connected : request.peer? = .some peer) : ¬setup.KeepsRate request.remote := by
  intro keeps
  let first := Request.naming "10.0.0.1" request.remote
  let second := Request.naming "10.0.0.2" request.remote
  have firstClient : first.client = utf8 "10.0.0.1" :=
    Request.naming_client _ _ peer ((Request.peer?_congr first request rfl).trans connected) (by decide +kernel)
  have secondClient : second.client = utf8 "10.0.0.2" :=
    Request.naming_client _ _ peer ((Request.peer?_congr second request rfl).trans connected) (by decide +kernel)
  have different : first.client ≠ second.client := by
    rw [firstClient,secondClient]
    decide
  let events := List.replicate setup.limits.burst (Event.request first) ++
    List.replicate setup.limits.burst (Event.request second)
  have passed : (setup.service : Service Rat).passTimes (fun _ => true) events =
      List.replicate (setup.limits.burst + setup.limits.burst) 0 :=
    Service.passTimes_two_names setup.service setup.maxBytes (setup.service_layout limited) rfl first second
      (Request.naming_asks _ _) (Request.naming_asks _ _) different
  have origin : ∀ other, .request other ∈ events → other.remote = request.remote := by
    intro other member
    rcases List.mem_append.mp member with left | right
    · rw [Event.request.inj (List.eq_of_mem_replicate left)]
      rfl
    · rw [Event.request.inj (List.eq_of_mem_replicate right)]
      rfl
  have counted : within 0 0 (List.replicate (setup.limits.burst + setup.limits.burst) 0) =
      setup.limits.burst + setup.limits.burst := by
    simp [within,List.countP_replicate]
  have bound := keeps events origin 0 0 le_rfl
  have positive : (0 : Rat) < setup.limits.burst := by exact_mod_cast setup.limits.burst_pos
  rw [passed,counted] at bound
  push_cast at bound
  linarith

/-- A client is kept to its rate if cleanups leave time for a whole burst to come back, and
so is a remote address whose requests name no other. But if their headers may be any,
the rate is kept only for remote addresses that are none. -/
theorem keepsRate_iff_no_address (cacheSize : Nat) (maxBytes requestsPerMinute burst interval : Int)
    (limited : 0 < requestsPerMinute) (refills : (Settings.clamped requestsPerMinute burst interval).Refills) :
    let setup : Setup := ⟨cacheSize,.clamped requestsPerMinute burst interval,maxBytes⟩
    (∀ client events, setup.Bounds (·.client == client) events) ∧
      (∀ remote events, (∀ request, .request request ∈ events → request.remote = remote ∧ request.named? = none) →
        setup.Bounds (fun _ => true) events) ∧
      ∀ remote, setup.KeepsRate remote ↔ ∀ request : Request, request.remote = remote → request.peer? = none := by
  intro setup
  refine ⟨setup.bounds_client limited refills,?_,?_⟩
  · intro remote events plain
    let other := Request.naming "" remote
    refine setup.bounds_of_one_client limited refills
      (match other.peer? with | none => [] | some peer => peer.write) events ?_
    intro request member
    obtain ⟨origin,unnamed⟩ := plain request member
    rw [Request.client_eq,unnamed,Request.peer?_congr request other origin]
    rfl
  · intro remote
    constructor
    · rintro keeps request rfl
      cases connected : request.peer? with
      | none => rfl
      | some peer =>
        exact absurd keeps (setup.not_keepsRate limited request peer connected)
    · intro unconnected events origin
      refine setup.bounds_of_one_client limited refills [] events ?_
      intro request member
      rw [Request.client_eq,unconnected request (origin request member)]

/-- One request a minute and no burst: the rate is not kept for an address and a port, and
it is kept for the other end of a local socket, which has no address. -/
theorem keepsRate_iff_no_address_minute :
    let setup : Setup := ⟨0,.clamped 1 1 60000000000,0⟩
    (0 < (1 : Int) ∧ setup.limits.Refills) ∧
      ¬setup.KeepsRate (utf8 "192.0.2.1:1234") ∧ setup.KeepsRate (utf8 "@") := by
  intro setup
  have refills : setup.limits.Refills := by
    change ((1 : Nat) : Rat) ≤ ((1 : Int) : Rat) * (((60000000000 : Nat) : Rat) / 1000000000) / 60
    norm_num
  obtain ⟨_,_,exact⟩ := keepsRate_iff_no_address 0 0 1 1 60000000000 (by decide) refills
  refine ⟨⟨by decide,refills⟩,?_,?_⟩
  · intro keeps
    have missing := (exact _).mp keeps (Request.naming "" (utf8 "192.0.2.1:1234")) rfl
    revert missing
    decide +kernel
  · refine (exact _).mpr fun request origin => ?_
    rw [Request.peer?_congr request (Request.naming "" (utf8 "@")) origin]
    decide +kernel

/-- Two requests from one address at one moment pass although the burst is one: each names
another client. -/
theorem not_keepsRate_two_names : ¬(⟨0,.clamped 1 1 60000000000,0⟩ : Setup).KeepsRate (utf8 "192.0.2.1:1234") := by
  intro keeps
  have bound := keeps [.request (.naming "10.0.0.1" (utf8 "192.0.2.1:1234")),
    .request (.naming "10.0.0.2" (utf8 "192.0.2.1:1234"))] (by simp [Request.naming]) 0 0 le_rfl
  revert bound
  decide +kernel

end Setup

end SqlTidy.Http
