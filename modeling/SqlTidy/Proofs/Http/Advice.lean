import SqlTidy.Proofs.Http.Forwarding
import SqlTidy.Proofs.Http.Frame
import SqlTidy.Proofs.RateLimit.Remainder

/-! What a client is told about its limit holds. The time to wait that comes with a refusal
is long enough in every setup with a limiter, and the number of requests that are left is
the number that would pass at once. Both are promises of the limiter, carried over to
histories of requests by what the limiter is asked in them. -/
namespace SqlTidy.Http
open Limiter Tokens

theorem Headers.lookup_set (headers : Headers) (name other : String) (value : Bytes) :
    (headers.set name value).lookup other = if other = name then some value else headers.lookup other := by
  unfold Headers.set
  rw [List.lookup_append]
  by_cases same : other = name
  · subst other
    have cleared : (headers.filter (·.1 != name)).lookup name = none := by
      refine List.lookup_eq_none_iff.mpr fun header member => ?_
      have apart : header.1 ≠ name := by simpa using (List.mem_filter.mp member).2
      simpa using apart.symm
    simp [cleared]
  · have apart : (other == name) = false := beq_eq_false_iff_ne.mpr same
    rw [lookup_filter_other headers name other same,if_neg same,List.lookup_cons,apart]
    exact Option.or_none

/-- The body of a refusal. -/
def refusalBody (limit remaining : Int) : Json :=
  .object [(utf8 "error",Json.ofString "rate limit exceeded"),(utf8 "limit",Json.ofInt limit),
    (utf8 "remaining",Json.ofInt remaining),(utf8 "retry_after",Json.ofInt 60)]

namespace Service

section Answers

variable {α : Type} [Tokens α]

theorem handle_other_status (service : Service α) (limited : Bool) (maxBytes : Int)
    (layout : service.layout = .standard limited maxBytes) (request : Request)
    (other : request.asksTransform = false) : (service.handle request).response.status ≠ 429 := by
  simp only [handle,layout]
  split
  next =>
    simp only [Request.redirection]
    split <;> simp
  next =>
    rw [Layout.stages_of_other limited maxBytes request other]
    rcases Layout.find?_of_other limited maxBytes request other with found | found
    · simp [found,pass,serve,Response.notFound]
    · simpa [found,pass,serve,Response.json] using Endpoint.run_status _ _ _ _ _

/-- A request is answered with 429 exactly if it is for a transform and the limiter refuses it. -/
theorem handle_refuses (service : Service α) (maxBytes : Int) (layout : service.layout = .standard true maxBytes)
    (request : Request) :
    (service.handle request).response.status = 429 ↔
      request.asksTransform = true ∧ (service.limiter.allow request.client).1 = false := by
  cases asks : request.asksTransform with
  | true => simpa using (handle_asks service maxBytes layout request asks).2
  | false => simpa using handle_other_status service true maxBytes layout request asks

/-- The response to a request for a transform tells how the client stands once it has asked. -/
theorem handle_notice (service : Service α) (maxBytes : Int) (layout : service.layout = .standard true maxBytes)
    (request : Request) (asks : request.asksTransform = true) :
    let response := (service.handle request).response
    let told := (service.limiter.allow request.client).2.standing request.client
    response.headers.lookup "X-Ratelimit-Limit" = some (Bytes.ofInt told.2) ∧
      response.headers.lookup "X-Ratelimit-Remaining" = some (Bytes.ofInt told.1) ∧
      (response.status = 429 → response.headers.lookup "Retry-After" = some (utf8 "60") ∧
        response.body = (refusalBody told.2 told.1).write) := by
  intro response told
  have status := (handle_asks service maxBytes layout request asks).2
  obtain ⟨endpoint,transform,posted⟩ := request.asksTransform_iff.mp asks
  have handled := handle_posted service true maxBytes layout endpoint transform request posted
  simp only [if_true,List.cons_append,List.nil_append,pass] at handled
  cases allowed : (service.limiter.allow request.client).1 with
  | true =>
    have passed : response.status ≠ 429 := by simp [response,status,allowed]
    refine ⟨?_,?_,fun refused => absurd refused passed⟩
    · simp [response,handled,allowed,serve,Response.json,Notes.withStanding,Headers.lookup_set,told]
    · simp [response,handled,allowed,serve,Response.json,Notes.withStanding,Headers.lookup_set,told]
  | false =>
    refine ⟨?_,?_,fun _ => ⟨?_,?_⟩⟩
    · simp [response,handled,allowed,refusal,Response.json,Notes.withStanding,Headers.lookup_set,told]
    · simp [response,handled,allowed,refusal,Response.json,Notes.withStanding,Headers.lookup_set,told]
    · simp [response,handled,allowed,refusal,Response.json,Headers.lookup_set]
    · simp [response,handled,allowed,refusal,Response.json,Reply.object,refusalBody,told]

end Answers

section Histories

variable {α : Type} [Tokens α]

def slept : List Event → Nat
  | [] => 0
  | .request _ :: events => slept events
  | .sleep ns :: events => ns + slept events

theorem after_now (service : Service α) (maxBytes : Int) (layout : service.layout = .standard true maxBytes)
    (events : List Event) : (service.after events).limiter.now = service.limiter.now + slept events := by
  induction events generalizing service with
  | nil => rfl
  | cons event events ih =>
    have rest := ih (service.step event) ((step_layout service event).trans layout)
    refine rest.trans ?_
    cases event with
    | sleep ns => simp [step,sleep,Limiter.sleep,slept,Nat.add_assoc]
    | request request =>
      have still : (service.step (.request request)).limiter.now = service.limiter.now := by
        rw [step_limiter service maxBytes layout]
        simp only [calls]
        split <;> rfl
      rw [still,slept]

theorem trace_append (service : Service α) (first second : List Event) :
    service.trace (first ++ second) = service.trace first ++ (service.after first).trace second := by
  induction first generalizing service with
  | nil => rfl
  | cons event first ih => simp only [List.cons_append,trace,ih,after,List.foldl_cons,List.append_assoc]

theorem trace_requests (service : Service α) (requests : List Request) :
    service.trace (requests.map .request) =
      (requests.filter (·.asksTransform)).map fun request => .allow request.client := by
  induction requests generalizing service with
  | nil => rfl
  | cons request requests ih =>
    simp only [List.map_cons,trace,calls,ih]
    cases asks : request.asksTransform <;> simp [asks]

/-- A client that sends nothing for a transform does not ask its limiter. -/
theorem allow_not_mem_trace (service : Service α) (client : Client) (events : List Event)
    (quiet : ∀ request, .request request ∈ events → request.client = client → request.asksTransform = false) :
    .allow client ∉ service.trace events := by
  induction events generalizing service with
  | nil => simp [trace]
  | cons event events ih =>
    have rest := ih (service.step event) fun request member => quiet request (List.mem_cons_of_mem event member)
    rw [trace,List.mem_append,not_or]
    refine ⟨?_,rest⟩
    cases event with
    | sleep ns =>
      intro member
      have silent := passing_silent service.limiter ns _ member
      simp [Limiter.Event.client?] at silent
    | request request =>
      have own := quiet request List.mem_cons_self
      simp only [calls]
      split
      next asks => simpa [asks,eq_comm] using own
      next => exact List.not_mem_nil

theorem count_trace (service : Service α) (client : Client) (requests : List Request) :
    (service.trace (requests.map .request)).count (.allow client) =
      requests.countP fun request => request.asksTransform && request.client == client := by
  rw [trace_requests,List.count_eq_countP,List.countP_map,List.countP_filter]
  refine List.countP_congr fun request _ => ?_
  simp [and_comm]

theorem trace_calls (service : Service α) (requests : List Request) :
    ∀ event ∈ service.trace (requests.map .request), event.client?.isSome := by
  rw [trace_requests]
  intro event member
  obtain ⟨request,_,rfl⟩ := List.mem_map.mp member
  rfl

end Histories

/-- Which of the requests of a client for a transform pass, of some that come at once. -/
def admissions (service : Service Rat) (client : Client) : List Request → List Bool
  | [] => []
  | request :: requests =>
    let rest := (service.step (.request request)).admissions client requests
    if request.asksTransform && request.client == client then service.passes request :: rest else rest

theorem admissions_eq (service : Service Rat) (maxBytes : Int) (layout : service.layout = .standard true maxBytes)
    (client : Client) (requests : List Request) :
    service.admissions client requests = service.limiter.verdicts client (service.trace (requests.map .request)) := by
  induction requests generalizing service with
  | nil => rfl
  | cons request requests ih =>
    have rest := ih (service.step (.request request)) ((step_layout service _).trans layout)
    rw [admissions,rest,step_limiter service maxBytes layout,passes_eq service maxBytes layout]
    cases asks : request.asksTransform with
    | false => simp [trace,calls,asks,Limiter.after]
    | true =>
      simp only [List.map_cons,trace,calls,asks,if_true,List.singleton_append,Limiter.after,List.foldl_cons,
        List.foldl_nil,verdicts,Bool.true_and,beq_iff_eq,Limiter.Event.allow.injEq]
      split
      next own => rw [own]
      next => rfl

/-- The number of requests that are left is exact for a limiter in any sound state. -/
theorem notice_exact (service : Service Rat) (maxBytes : Int) (layout : service.layout = .standard true maxBytes)
    (sound : service.limiter.Sound) (request : Request)
    (asks : request.asksTransform = true) :
    let answer := service.handle request
    ∃ left : Nat, left < service.limiter.settings.burst ∧
      answer.response.headers.lookup "X-Ratelimit-Limit" = some (Bytes.ofNat service.limiter.settings.burst) ∧
      answer.response.headers.lookup "X-Ratelimit-Remaining" = some (Bytes.ofNat left) ∧
      (answer.response.status = 429 →
        left = 0 ∧ answer.response.body = (refusalBody service.limiter.settings.burst 0).write) ∧
      ∀ requests : List Request,
        let asked := requests.countP fun other => other.asksTransform && other.client == request.client
        answer.service.admissions request.client requests =
          List.replicate (min left asked) true ++ List.replicate (asked - left) false := by
  intro answer
  let limiter := (service.limiter.allow request.client).2
  have next : limiter.Sound := sound.step (.allow request.client)
  have same : limiter.settings = service.limiter.settings := step_settings service.limiter (.allow request.client)
  have standing := next.standing_eq request.client
  obtain ⟨below,exhausted⟩ := sound.level_asked request.client
  obtain ⟨shownLimit,shownLeft,shownBody⟩ := handle_notice service maxBytes layout request asks
  rw [standing,same] at shownLimit shownLeft shownBody
  refine ⟨⌊limiter.level request.client⌋₊,below,shownLimit,shownLeft,?_,?_⟩
  · intro refused
    have nothing := exhausted ((handle_refuses service maxBytes layout request).mp refused).2
    refine ⟨nothing,?_⟩
    rw [(shownBody refused).2,nothing]
    rfl
  · intro requests asked
    have moved : answer.service.limiter = limiter := (handle_asks service maxBytes layout request asks).1
    rw [admissions_eq answer.service maxBytes ((step_layout service (.request request)).trans layout),moved,
      verdicts_eq limiter next.distinct request.client _ (trace_calls _ _),count_trace]

end Service

namespace Setup

theorem sound_after (setup : Setup) (limited : 0 < setup.limits.requestsPerMinute) (history : List Event) :
    ((setup.service : Service Rat).after history).limiter.Sound := by
  rw [Service.after_limiter _ _ (setup.service_layout limited)]
  exact (sound_fresh setup.limits (setup.limits.rate_nonneg limited.le)).after _

theorem limits_after (setup : Setup) (limited : 0 < setup.limits.requestsPerMinute) (history : List Event) :
    ((setup.service : Service Rat).after history).limiter.settings = setup.limits := by
  rw [Service.after_limiter _ _ (setup.service_layout limited)]
  exact after_settings _ _

/-- A client that stays away from the transforms for a period after it has asked is not refused. -/
theorem passes_rested (setup : Setup) (limited : 0 < setup.limits.requestsPerMinute)
    (history later : List Event) (asked next : Request) (asks : asked.asksTransform = true)
    (own : next.client = asked.client)
    (quiet : ∀ request, .request request ∈ later → request.client = asked.client → request.asksTransform = false)
    (waited : setup.limits.period ≤ seconds (Service.slept later)) :
    let service := (setup.service : Service Rat).after history
    (((service.step (.request asked)).after later).handle next).response.status ≠ 429 := by
  intro service
  let fresh : Service Rat := setup.service
  let whole := history ++ .request asked :: later
  have layout : fresh.layout = .standard true setup.maxBytes := setup.service_layout limited
  have reached : (service.step (.request asked)).after later = fresh.after whole := by
    simp [service,fresh,whole,Service.after]
  have traced : fresh.trace whole =
      fresh.trace history ++ .allow asked.client :: (service.step (.request asked)).trace later := by
    rw [Service.trace_append,Service.trace,Service.calls,if_pos asks]
    rfl
  have clock : (fresh.after whole).limiter.now - service.limiter.now = Service.slept later := by
    rw [← reached]
    have moved := Service.after_now service _ ((Service.after_layout _ _).trans layout) (.request asked :: later)
    exact Nat.sub_eq_of_eq_add' moved
  have granted : ((fresh.after whole).limiter.allow next.client).1 = true := by
    have silent := Service.allow_not_mem_trace (service.step (.request asked)) asked.client later quiet
    rw [← clock,Service.after_limiter fresh _ layout,Service.after_limiter fresh _ layout,traced] at waited
    rw [own,Service.after_limiter fresh _ layout,traced]
    exact allow_after_pause setup.limits limited _ _ _ silent waited
  rw [reached,ne_eq,Service.handle_refuses _ _ ((Service.after_layout _ _).trans layout),granted]
  simp

/-- In every run of a limiter with a rate, a client that last asked the time of one request
ago, or never, is let through. A client that is answered with 429 is therefore not refused
again if it keeps away from the transforms for the minute it is told to wait. -/
theorem waiting_suffices (requestsPerMinute burst interval : Int) (limited : 1 ≤ requestsPerMinute) :
    let settings := Settings.clamped requestsPerMinute burst interval
    (∀ (events : List Limiter.Event) (client : Client),
      let limiter := ({ settings } : Limiter Rat).after events
      (∀ time ∈ (({ settings } : Limiter Rat).askTimes client events).getLast?,
        60 / (requestsPerMinute : Rat) ≤ seconds (limiter.now - time)) → (limiter.allow client).1 = true) ∧
    ∀ (cacheSize : Nat) (maxBytes : Int) (history : List Event) (refused : Request),
      let setup : Setup := ⟨cacheSize,settings,maxBytes⟩
      let answer := ((setup.service : Service Rat).after history).handle refused
      answer.response.status = 429 →
        answer.response.headers.lookup "Retry-After" = some (utf8 "60") ∧
        ∀ (later : List Event) (next : Request), next.client = refused.client →
          (∀ request, .request request ∈ later → request.client = refused.client → request.asksTransform = false) →
          60 ≤ (seconds (Service.slept later) : Rat) →
          ((answer.service.after later).handle next).response.status ≠ 429 := by
  intro settings
  refine ⟨?_,?_⟩
  · intro events client limiter rested
    exact allow_rested settings limited events client rested
  · intro cacheSize maxBytes history refused setup answer status
    have layout := (Service.after_layout _ history).trans (setup.service_layout limited)
    have asks := ((Service.handle_refuses _ _ layout refused).mp status).1
    refine ⟨((Service.handle_notice _ _ layout refused asks).2.2 status).1,?_⟩
    intro later next own quiet waited
    exact setup.passes_rested limited history later refused next asks own quiet
      ((settings.period_le limited).trans waited)

/-- One request a minute and no burst: the second request is refused, the third passes after
a minute in which another client is busy. -/
theorem waiting_suffices_minute :
    let settings := Settings.clamped 1 1 0
    let setup : Setup := ⟨0,settings,0⟩
    let post := Request.naming "10.0.0.1" (utf8 "192.0.2.1:1234")
    let other := Request.naming "10.0.0.2" (utf8 "192.0.2.1:1234")
    let answer := ((setup.service : Service Rat).after [.request post]).handle post
    let later : List Event := [.sleep 30000000000,.request other,.sleep 30000000000]
    let events : List Limiter.Event := [.allow (utf8 "a"),.allow (utf8 "a"),.advance 60000000000,.tick]
    (answer.response.status = 429 ∧ 60 ≤ (seconds (Service.slept later) : Rat) ∧
      ({ settings } : Limiter Rat).askTimes (utf8 "a") events = [0,0]) ∧
      ((answer.service.after later).handle post).response.status ≠ 429 ∧
      ((({ settings } : Limiter Rat).after events).allow (utf8 "a")).1 = true := by
  intro settings setup post other answer later events
  obtain ⟨allowed,passes⟩ := waiting_suffices 1 1 0 le_rfl
  have refused : answer.response.status = 429 := by decide +kernel
  have waited : 60 ≤ (seconds (Service.slept later) : Rat) := by decide +kernel
  have asked : ({ settings } : Limiter Rat).askTimes (utf8 "a") events = [0,0] := by decide +kernel
  have different : other.client ≠ post.client := by decide +kernel
  refine ⟨⟨refused,waited,asked⟩,?_,?_⟩
  · refine (passes 0 0 [.request post] post refused).2 later post rfl ?_ waited
    intro request member own
    have only : request = other := by simpa [later] using member
    exact absurd (only ▸ own) different
  · refine allowed events (utf8 "a") fun time member => ?_
    rw [asked] at member
    obtain rfl := Option.some.inj member
    decide +kernel

/-- The standing of a client is exact: without the clock moving, that many of its next requests
are let through and those after them are not, whatever others ask in between. Every response
to a request for a transform tells this number, which is below a burst; a refusal tells zero. -/
theorem remainder_exact (requestsPerMinute burst interval : Int) (events : List Limiter.Event) (client : Client)
    (cacheSize : Nat) (maxBytes : Int) (history : List Event) (request : Request) :
    let settings := Settings.clamped requestsPerMinute burst interval
    let limiter := ({ settings } : Limiter Rat).after events
    let setup : Setup := ⟨cacheSize,settings,maxBytes⟩
    let answer := ((setup.service : Service Rat).after history).handle request
    (0 ≤ requestsPerMinute →
      ∃ left : Nat, limiter.standing client = ((left : Int),(settings.burst : Int)) ∧ left ≤ settings.burst ∧
        ∀ calls : List Limiter.Event, (∀ event ∈ calls, event.client?.isSome) →
          let asked := calls.count (.allow client)
          limiter.verdicts client calls =
            List.replicate (min left asked) true ++ List.replicate (asked - left) false) ∧
    (0 < requestsPerMinute → request.asksTransform = true →
      ∃ left : Nat, left < settings.burst ∧
        answer.response.headers.lookup "X-Ratelimit-Limit" = some (Bytes.ofNat settings.burst) ∧
        answer.response.headers.lookup "X-Ratelimit-Remaining" = some (Bytes.ofNat left) ∧
        (answer.response.status = 429 → left = 0 ∧ answer.response.body = (refusalBody settings.burst 0).write) ∧
        ∀ requests : List Request,
          let asked := requests.countP fun other => other.asksTransform && other.client == request.client
          answer.service.admissions request.client requests =
            List.replicate (min left asked) true ++ List.replicate (asked - left) false) := by
  intro settings limiter setup answer
  refine ⟨?_,?_⟩
  · intro steady
    have sound : limiter.Sound := (sound_fresh settings (settings.rate_nonneg steady)).after events
    have same : limiter.settings = settings := after_settings _ events
    refine ⟨⌊limiter.level client⌋₊,?_,?_,?_⟩
    · rw [sound.standing_eq,same]
    · rw [← same]
      exact Nat.floor_le_of_le (sound.level_le client)
    · intro calls each
      exact verdicts_eq limiter sound.distinct client calls each
  · intro limited asks
    have layout := (Service.after_layout _ history).trans (setup.service_layout limited)
    have told := Service.notice_exact _ _ layout (setup.sound_after limited history)
    rw [setup.limits_after limited history] at told
    exact told request asks

/-- With a burst of two and a second between, a client that has asked once is told that one
request is left: of three more that it sends at once the first passes, although another
client comes first. -/
theorem remainder_exact_two :
    let settings := Settings.clamped 1 2 0
    let setup : Setup := ⟨0,settings,0⟩
    let post := Request.naming "10.0.0.1" (utf8 "192.0.2.1:1234")
    let other := Request.naming "10.0.0.2" (utf8 "192.0.2.1:1234")
    let answer := ((setup.service : Service Rat).after [.sleep 1000000000]).handle post
    (0 < (1 : Int) ∧ post.asksTransform = true) ∧
      answer.response.headers.lookup "X-Ratelimit-Remaining" = some (utf8 "1") ∧
      answer.service.admissions post.client [other,post,post,post] = [true,false,false] ∧
      ({ settings } : Limiter Rat).verdicts (utf8 "a") (List.replicate 3 (.allow (utf8 "a"))) = [true,true,false] := by
  intro settings setup post other answer
  obtain ⟨limiter,service⟩ := remainder_exact 1 2 0 [] (utf8 "a") 0 0 [.sleep 1000000000] post
  have asks : post.asksTransform = true := Request.naming_asks _ _
  have told : answer.response.headers.lookup "X-Ratelimit-Remaining" = some (utf8 "1") := by decide +kernel
  refine ⟨⟨Int.one_pos,asks⟩,told,?_,?_⟩
  · obtain ⟨left,below,_,shown,_,passes⟩ := service Int.one_pos asks
    have one : left = 1 := by
      have digits : Bytes.ofNat left = utf8 "1" := Option.some.inj (shown.symm.trans told)
      rcases Nat.lt_succ_iff_lt_or_eq.mp below with less | same
      · rw [Nat.lt_one_iff.mp less] at digits
        exact absurd digits (by decide +kernel)
      · exact same
    have asked : [other,post,post,post].countP (fun next => next.asksTransform && next.client == post.client) = 3 := by
      decide +kernel
    have each := passes [other,post,post,post]
    rw [asked,one] at each
    exact each
  · obtain ⟨left,standing,_,each⟩ := limiter Int.one_pos.le
    have two : (2 : Int) = left := congrArg Prod.fst standing
    have verdicts := each (List.replicate 3 (.allow (utf8 "a"))) (by simp [Limiter.Event.client?])
    rw [List.count_replicate_self,← Int.ofNat.inj two] at verdicts
    exact verdicts

end Setup
end SqlTidy.Http
