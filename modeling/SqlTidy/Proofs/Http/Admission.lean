import SqlTidy.Proofs.Http.History
import SqlTidy.Proofs.RateLimit.Guarantee
import SqlTidy.Proofs.RateLimit.Sleep

/-! The limiter inside a service. A request for a transform asks the limiter once, for the
client that it counts for, and is answered with 429 exactly if it is refused; no other
request reaches the limiter. A history of the service is thereby a run of its limiter,
and the requests of one client that pass are the grants of that run. -/
namespace SqlTidy.Http

def Request.asksTransform (request : Request) : Bool :=
  Endpoint.all.any fun endpoint =>
    endpoint.isTransform && request.method == utf8 "POST" && request.path == utf8 "/v1/sql" ++ utf8 endpoint.name

theorem Request.asksTransform_iff (request : Request) :
    request.asksTransform = true ↔ ∃ endpoint, endpoint ≠ .health ∧ request.PostsTo endpoint := by
  have listed (endpoint : Endpoint) : endpoint ∈ Endpoint.all := by cases endpoint <;> decide
  simp [asksTransform,PostsTo,Endpoint.isTransform,listed,and_assoc]

theorem Layout.find?_standard (limited : Bool) (maxBytes : Int) (request : Request) (endpoint : Endpoint)
    (transform : endpoint ≠ .health)
    (found : (Layout.standard limited maxBytes).find? request.method request.path = some endpoint) :
    request.PostsTo endpoint := by
  have isTransform : endpoint.isTransform = true := by simpa [Endpoint.isTransform] using transform
  have method : endpoint.method = utf8 "POST" := by
    cases endpoint with
    | health => exact absurd rfl transform
    | _ => rfl
  have matched := List.find?_some found
  simp only [pathOf,isTransform,if_true,method,Bool.and_eq_true,beq_iff_eq] at matched
  exact ⟨matched.1.symm,matched.2.symm⟩

theorem Layout.stages_of_other (limited : Bool) (maxBytes : Int) (request : Request)
    (other : request.asksTransform = false) :
    (Layout.standard limited maxBytes).stages
      ((Layout.standard limited maxBytes).find? request.method request.path) = [.requestId,.accessLog] := by
  have notTransform : ((Layout.standard limited maxBytes).find? request.method request.path).any
      (·.isTransform) = false := by
    cases found : (Layout.standard limited maxBytes).find? request.method request.path with
    | none => rfl
    | some endpoint =>
      by_cases health : endpoint = .health
      · subst endpoint
        rfl
      · have asks := request.asksTransform_iff.mpr ⟨endpoint,health,find?_standard _ _ _ _ health found⟩
        simp [asks] at other
  rw [stages,notTransform]
  rfl

theorem Endpoint.run_status (endpoint : Endpoint) (path : Bytes) (limit : Option Nat) (body : Bytes) (cache : Cache) :
    (endpoint.run path limit body cache).reply.status ≠ 429 := by
  rcases endpoint.run_cases path limit body cache with ⟨fault,ran⟩ | ⟨_,reply,fine,ran⟩ | ⟨_,text,options,ran⟩
  · rw [ran]
    cases fault <;> simp [Reply.ofFault,Reply.object]
  · simp [ran,fine]
  · simp [ran,Reply.sanitized,Reply.object]

namespace Service

variable {α : Type} [Tokens α]

theorem pass_limiter (request : Request) (endpoint : Option Endpoint) (stages : List Stage) (notes : Notes)
    (service : Service α) (open_ : .rateLimit ∉ stages) :
    (pass request endpoint stages notes service).service.limiter = service.limiter := by
  induction stages generalizing notes service with
  | nil => cases endpoint <;> rfl
  | cons stage stages ih =>
    have rest : .rateLimit ∉ stages := fun member => open_ (List.mem_cons_of_mem stage member)
    cases stage with
    | requestId => exact ih _ _ rest
    | bodyLimit => exact ih _ _ rest
    | accessLog => exact ih _ _ rest
    | rateLimit => simp at open_

theorem handle_other (service : Service α) (limited : Bool) (maxBytes : Int)
    (layout : service.layout = .standard limited maxBytes) (request : Request)
    (other : request.asksTransform = false) : (service.handle request).service.limiter = service.limiter := by
  simp only [handle,layout]
  split
  next => rfl
  next =>
    rw [Layout.stages_of_other limited maxBytes request other]
    exact pass_limiter _ _ _ _ _ (by decide)

theorem handle_asks (service : Service α) (maxBytes : Int) (layout : service.layout = .standard true maxBytes)
    (request : Request) (asks : request.asksTransform = true) :
    (service.handle request).service.limiter = (service.limiter.allow request.client).2 ∧
      ((service.handle request).response.status = 429 ↔ (service.limiter.allow request.client).1 = false) := by
  obtain ⟨endpoint,transform,posted⟩ := request.asksTransform_iff.mp asks
  rw [handle_posted service true maxBytes layout endpoint transform request posted]
  simp only [if_true,List.cons_append,List.nil_append,pass]
  cases allowed : (service.limiter.allow request.client).1 with
  | true => exact ⟨rfl,by simp [serve,Response.json,Endpoint.run_status]⟩
  | false => exact ⟨rfl,by simp [refusal,Response.json]⟩

def calls (service : Service α) : Event → List Limiter.Event
  | .request request => if request.asksTransform then [.allow request.client] else []
  | .sleep ns => service.limiter.passing ns

theorem step_limiter (service : Service α) (maxBytes : Int) (layout : service.layout = .standard true maxBytes)
    (event : Event) : (service.step event).limiter = service.limiter.after (service.calls event) := by
  cases event with
  | sleep ns => exact Limiter.sleep_eq_after service.limiter ns
  | request request =>
    cases asks : request.asksTransform with
    | true =>
      simp only [step,calls,asks,if_true]
      exact (handle_asks service maxBytes layout request asks).1
    | false =>
      simp only [step,calls,asks,Bool.false_eq_true,if_false]
      exact handle_other service true maxBytes layout request asks

/-- What a history asks of the limiter. -/
def trace (service : Service α) : List Event → List Limiter.Event
  | [] => []
  | event :: events => service.calls event ++ (service.step event).trace events

theorem after_limiter (service : Service α) (maxBytes : Int) (layout : service.layout = .standard true maxBytes)
    (events : List Event) : (service.after events).limiter = service.limiter.after (service.trace events) := by
  induction events generalizing service with
  | nil => rfl
  | cons event events ih =>
    have next := ih (service.step event) ((step_layout service event).trans layout)
    rw [step_limiter service maxBytes layout event] at next
    rw [trace,Limiter.after,List.foldl_append]
    exact next

end Service
end SqlTidy.Http

namespace SqlTidy.Limiter

theorem passing_silent {α : Type} (limiter : Limiter α) (ns : Nat) : ∀ event ∈ limiter.passing ns, event.client? = none := by
  have silent (interval count now : Nat) : ∀ event ∈ ticks interval count now, event.client? = none := by
    induction count generalizing now with
    | zero => simp [ticks]
    | succ count ih =>
      intro event member
      simp only [ticks,List.mem_cons] at member
      rcases member with rfl | rfl | rest
      · rfl
      · rfl
      · exact ih _ event rest
  intro event member
  rcases List.mem_append.mp member with tick | last
  · exact silent _ _ _ event tick
  · rw [List.mem_singleton.mp last]
    rfl

theorem grantTimes_silent (limiter : Limiter Rat) (client : Client) (events : List Event)
    (silent : ∀ event ∈ events, event.client? = none) : limiter.grantTimes client events = [] := by
  refine timesCounted_eq_nil _ _ _ _ fun limiter event member => ?_
  have unasked := silent event member
  cases event with
  | allow caller => simp [Event.client?] at unasked
  | _ => simp [grants]

end SqlTidy.Limiter

namespace SqlTidy.Http.Service
open Limiter

/-- Whether a request is for a transform and is not refused. -/
def passes (service : Service Rat) (request : Request) : Bool :=
  request.asksTransform && (service.handle request).response.status != 429

/-- Whether an event is a request of a kind that passes. -/
def passesAs (counted : Request → Bool) (service : Service Rat) : Event → Bool
  | .request request => counted request && service.passes request
  | .sleep _ => false

/-- The times at which requests of a kind pass. -/
def passTimes (service : Service Rat) (counted : Request → Bool) (events : List Event) : List Nat :=
  timesCounted step (passesAs counted) (fun service _ => service.limiter.now) service events

theorem passTimes_cons (service : Service Rat) (counted : Request → Bool) (event : Event) (events : List Event) :
    service.passTimes counted (event :: events) =
      if service.passesAs counted event then service.limiter.now :: (service.step event).passTimes counted events
      else (service.step event).passTimes counted events := rfl

theorem passes_eq (service : Service Rat) (maxBytes : Int) (layout : service.layout = .standard true maxBytes)
    (request : Request) :
    service.passes request = (request.asksTransform && (service.limiter.allow request.client).1) := by
  cases asks : request.asksTransform with
  | false => simp [passes,asks]
  | true =>
    have refused := (handle_asks service maxBytes layout request asks).2
    cases allowed : (service.limiter.allow request.client).1 with
    | true => simp [passes,asks,bne,refused,allowed]
    | false => simp [passes,asks,refused.mpr allowed]

/-- The requests of a client that pass are what its limiter grants it. -/
theorem passTimes_client (service : Service Rat) (maxBytes : Int) (layout : service.layout = .standard true maxBytes)
    (client : Client) (events : List Event) :
    service.passTimes (·.client == client) events = service.limiter.grantTimes client (service.trace events) := by
  induction events generalizing service with
  | nil => rfl
  | cons event events ih =>
    have next := ih (service.step event) ((step_layout service event).trans layout)
    rw [trace,grantTimes_append,← step_limiter service maxBytes layout event,← next]
    cases event with
    | sleep ns => simp [passTimes_cons,passesAs,calls,grantTimes_silent _ _ _ (passing_silent service.limiter ns)]
    | request request =>
      simp only [passTimes_cons,passesAs,passes_eq service maxBytes layout,calls]
      cases asks : request.asksTransform with
      | false => simp [grantTimes,timesCounted]
      | true =>
        by_cases own : request.client = client
        · subst own
          cases allowed : (service.limiter.allow request.client).1 <;> simp [grantTimes,timesCounted,grants,allowed]
        · simp [grantTimes,timesCounted,grants,own]

end SqlTidy.Http.Service
