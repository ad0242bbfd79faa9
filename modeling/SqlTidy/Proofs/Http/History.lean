import SqlTidy.Proofs.Cache.Transparency
import SqlTidy.Proofs.Http.Run

/-! The past does not show in a transform. The cache stays faithful through every
history, so that a transform which is let through replies as the body alone decides:
two histories, two sets of clients and two services with the same limit on bodies
cannot be told apart by status and body. -/
namespace SqlTidy.Http

/-- How a service is set up; a cache of size zero keeps nothing. -/
structure Setup where
  cacheSize : Nat
  limits : Limiter.Settings
  maxBytes : Int

def Setup.service {α : Type} (setup : Setup) : Service α :=
  .standard { capacity := setup.cacheSize } setup.limits setup.maxBytes

def Setup.limit? (setup : Setup) : Option Nat := if setup.maxBytes > 0 then some setup.maxBytes.toNat else none

def Request.PostsTo (request : Request) (endpoint : Endpoint) : Prop :=
  request.method = utf8 "POST" ∧ request.path = utf8 "/v1/sql" ++ utf8 endpoint.name

namespace Endpoint

/-- The transforms as functions of a JSON body, with no cache and no service around them.
A body without the fields that are needed has no answer. -/
def answer? : Endpoint → Json → Option Json
  | health, _ => none
  | clean, body => (textBody? "text" body).map fun text => .object [(utf8 "sql",.string (SqlTidy.clean text))]
  | removeLimit, body => (textBody? "sql" body).map fun sql => .object [(utf8 "sql",.string (SqlTidy.removeLimit sql))]
  | addQuotes, body => (textBody? "sql" body).map fun sql =>
    .object [(utf8 "sql",.string (SqlTidy.addQuotes sql)),(utf8 "error",.string [])]
  | sanitize, body => (sanitizeBody? body).map fun (text,options) =>
    .object [(utf8 "sql",.string (SqlTidy.sanitize options text).sql),(utf8 "error",.string []),
      (utf8 "extracted",.bool (SqlTidy.sanitize options text).extracted)]

def verdict (endpoint : Endpoint) (limit : Option Nat) (body : Bytes) : Reply :=
  match readBody limit body with
  | .error fault => .ofFault fault
  | .ok value =>
    match endpoint.answer? value with
    | some answer => ⟨200,answer⟩
    | none => .ofFault .invalid

private theorem transformed_reply (path : Bytes) (cache : Cache) (reply : Bytes → Reply)
    (decode : Json → Option Bytes) (limit : Option Nat) (body : Bytes) :
    (transformed path cache reply (decodeBody limit decode body)).reply =
      match readBody limit body with
      | .error fault => .ofFault fault
      | .ok value =>
        match decode value with
        | some text => reply text
        | none => .ofFault .invalid := by
  unfold decodeBody
  cases readBody limit body with
  | error fault => rfl
  | ok value => dsimp only; cases decode value <;> rfl

/-- An endpoint refuses the body, or replies and leaves the cache alone, or sanitizes a text. -/
theorem run_cases (endpoint : Endpoint) (path : Bytes) (limit : Option Nat) (body : Bytes) (cache : Cache) :
    (∃ fault : BodyFault,
      endpoint.run path limit body cache = { reply := .ofFault fault, logs := fault.logs path, cache }) ∨
    (endpoint ≠ sanitize ∧ ∃ reply : Reply, reply.status = 200 ∧ endpoint.run path limit body cache = { reply, cache }) ∨
    endpoint = sanitize ∧ ∃ text options, endpoint.run path limit body cache =
      { reply := .sanitized (cache.sanitize options text).1
        logs := [sanitizedEntry text (cache.sanitize options text).1]
        cache := (cache.sanitize options text).2 } := by
  cases endpoint with
  | health => exact .inr (.inl ⟨nofun,_,rfl,rfl⟩)
  | clean | removeLimit | addQuotes =>
    simp only [run]
    cases decodeBody limit _ body with
    | error fault => exact .inl ⟨fault,rfl⟩
    | ok text => exact .inr (.inl ⟨nofun,_,rfl,rfl⟩)
  | sanitize =>
    simp only [run]
    cases decodeBody limit sanitizeBody? body with
    | error fault => exact .inl ⟨fault,rfl⟩
    | ok decoded => exact .inr (.inr ⟨trivial,decoded.1,decoded.2,rfl⟩)

theorem run_reply (endpoint : Endpoint) (transform : endpoint ≠ health) (path : Bytes) (limit : Option Nat)
    (body : Bytes) (cache : Cache) (faithful : cache.Faithful) :
    (endpoint.run path limit body cache).reply = endpoint.verdict limit body := by
  cases endpoint with
  | health => exact absurd rfl transform
  | clean | removeLimit | addQuotes =>
    simp only [run,transformed_reply,verdict,answer?]
    cases readBody limit body with
    | error fault => rfl
    | ok value => dsimp only; cases textBody? _ value <;> rfl
  | sanitize =>
    simp only [run,decodeBody,verdict,answer?]
    cases readBody limit body with
    | error fault => rfl
    | ok value =>
      dsimp only
      cases sanitizeBody? value with
      | none => rfl
      | some request =>
        obtain ⟨text,options⟩ := request
        have result : (cache.sanitize options text).1 = SqlTidy.sanitize options text :=
          (faithful.call ⟨options,text⟩).1
        simp only [Option.map_some,result]
        rfl

theorem run_faithful (endpoint : Endpoint) (path : Bytes) (limit : Option Nat) (body : Bytes) (cache : Cache)
    (faithful : cache.Faithful) : (endpoint.run path limit body cache).cache.Faithful := by
  rcases endpoint.run_cases path limit body cache with ⟨_,ran⟩ | ⟨_,_,_,ran⟩ | ⟨_,text,options,ran⟩
  · rw [ran]
    exact faithful
  · rw [ran]
    exact faithful
  · rw [ran]
    exact (faithful.call ⟨options,text⟩).2

end Endpoint

namespace Service

variable {α : Type}

theorem serve_transform (service : Service α) (faithful : service.cache.Faithful) (request : Request)
    (endpoint : Endpoint) (transform : endpoint ≠ .health) (notes : Notes) (limited : notes.limited = true) :
    (service.serve request (some endpoint) notes).response.status =
        (endpoint.verdict service.layout.limit? request.body).status ∧
      (service.serve request (some endpoint) notes).response.body =
        (endpoint.verdict service.layout.limit? request.body).value.write := by
  have reply := endpoint.run_reply transform (service.layout.pathOf endpoint) service.layout.limit? request.body
    service.cache faithful
  simp only [serve,limited,if_true,Response.json,reply,and_self]

variable [Tokens α]

theorem pass_faithful (request : Request) (endpoint : Option Endpoint) (stages : List Stage) (notes : Notes)
    (service : Service α) (faithful : service.cache.Faithful) :
    (pass request endpoint stages notes service).service.cache.Faithful := by
  induction stages generalizing notes service with
  | nil =>
    cases endpoint with
    | none => exact faithful
    | some endpoint => exact endpoint.run_faithful _ _ _ _ faithful
  | cons stage stages ih =>
    cases stage with
    | requestId => exact ih _ _ faithful
    | bodyLimit => exact ih _ _ faithful
    | accessLog => exact ih _ _ faithful
    | rateLimit =>
      simp only [pass]
      split
      next => exact ih _ _ faithful
      next => exact faithful

theorem step_faithful (service : Service α) (event : Event) (faithful : service.cache.Faithful) :
    (service.step event).cache.Faithful := by
  cases event with
  | request request =>
    simp only [step,handle]
    split
    next => exact faithful
    next => exact pass_faithful _ _ _ _ _ faithful
  | sleep ns => exact faithful

theorem after_faithful (service : Service α) (events : List Event) (faithful : service.cache.Faithful) :
    (service.after events).cache.Faithful := by
  induction events generalizing service with
  | nil => exact faithful
  | cons event events ih => exact ih _ (step_faithful service event faithful)

/-- Whether the rate limiter, if there is one, lets a request through. -/
def admits (service : Service α) (request : Request) : Bool :=
  !service.layout.onTransforms.contains .rateLimit || (service.limiter.allow request.client).1

theorem handle_posted (service : Service α) (limited : Bool) (maxBytes : Int)
    (layout : service.layout = .standard limited maxBytes) (endpoint : Endpoint)
    (transform : endpoint ≠ .health) (request : Request) (posted : request.PostsTo endpoint) :
    service.handle request = pass request (some endpoint)
      ([.requestId,.accessLog,.bodyLimit] ++ if limited then [.rateLimit] else []) {} service := by
  have isTransform : endpoint.isTransform = true := by simpa [Endpoint.isTransform] using transform
  have method : request.method = endpoint.method := by
    rw [posted.1]
    cases endpoint with
    | health => exact absurd rfl transform
    | _ => rfl
  have path : request.path = (Layout.standard limited maxBytes).pathOf endpoint := by
    rw [posted.2,Layout.pathOf,isTransform]
    rfl
  have found : (Layout.standard limited maxBytes).find? request.method request.path = some endpoint := by
    rw [method,path]
    cases endpoint <;> rfl
  have direct : (Layout.standard limited maxBytes).redirects request.method request.path = false := by
    rw [path]
    cases endpoint <;> rfl
  have stages : (Layout.standard limited maxBytes).stages (some endpoint) =
      [.requestId,.accessLog,.bodyLimit] ++ if limited then [.rateLimit] else [] := by
    cases limited <;> simp [Layout.stages,Layout.standard,isTransform]
  simp only [handle,layout,direct,found,stages,Bool.false_eq_true,if_false]

theorem handle_transform (service : Service α) (limited : Bool) (maxBytes : Int)
    (layout : service.layout = .standard limited maxBytes) (faithful : service.cache.Faithful)
    (endpoint : Endpoint) (transform : endpoint ≠ .health) (request : Request)
    (posted : request.PostsTo endpoint) (admitted : service.admits request = true) :
    (service.handle request).response.status = (endpoint.verdict service.layout.limit? request.body).status ∧
      (service.handle request).response.body =
        (endpoint.verdict service.layout.limit? request.body).value.write := by
  rw [handle_posted service limited maxBytes layout endpoint transform request posted]
  cases limited with
  | false => exact serve_transform service faithful request endpoint transform _ rfl
  | true =>
    have allowed : (service.limiter.allow request.client).1 = true := by
      simpa [admits,layout,Layout.standard] using admitted
    simp only [List.cons_append,List.nil_append,pass,allowed,if_true]
    exact serve_transform _ faithful request endpoint transform _ rfl

theorem after_transform (setup : Setup) (events : List Event) (endpoint : Endpoint)
    (transform : endpoint ≠ .health) (request : Request) (posted : request.PostsTo endpoint)
    (admitted : ((setup.service : Service α).after events).admits request = true) :
    (((setup.service : Service α).after events).handle request).response.status =
        (endpoint.verdict setup.limit? request.body).status ∧
      (((setup.service : Service α).after events).handle request).response.body =
        (endpoint.verdict setup.limit? request.body).value.write := by
  have layout := after_layout (setup.service : Service α) events
  have faithful := after_faithful (setup.service : Service α) events (Cache.faithful_empty _)
  have limit : ((setup.service : Service α).after events).layout.limit? = setup.limit? := by
    rw [layout]
    rfl
  rw [← limit]
  exact handle_transform _ _ _ layout faithful endpoint transform request posted admitted

/-- Two services with one limit on bodies, after any two histories, give two requests with
the same path and body the same status and body if neither is refused by the limiter,
and a body that can be decoded gets the plain transform of what it holds. -/
theorem transform_history_independent (first second : Setup) (sameLimit : first.maxBytes = second.maxBytes)
    (earlier other : List Event) (endpoint : Endpoint) (transform : endpoint ≠ .health) (left right : Request)
    (leftPosted : left.PostsTo endpoint) (rightPosted : right.PostsTo endpoint) (sameBody : left.body = right.body)
    (leftAdmitted : ((first.service : Service α).after earlier).admits left = true)
    (rightAdmitted : ((second.service : Service α).after other).admits right = true) :
    let one := (((first.service : Service α).after earlier).handle left).response
    let two := (((second.service : Service α).after other).handle right).response
    one.status = two.status ∧ one.body = two.body ∧
      ∀ value answer, readBody first.limit? left.body = .ok value → endpoint.answer? value = some answer →
        one.status = 200 ∧ one.body = answer.write := by
  obtain ⟨leftStatus,leftBody⟩ := after_transform first earlier endpoint transform left leftPosted leftAdmitted
  obtain ⟨rightStatus,rightBody⟩ := after_transform second other endpoint transform right rightPosted rightAdmitted
  have limit : first.limit? = second.limit? := by simp only [Setup.limit?,sameLimit]
  refine ⟨?_,?_,?_⟩
  · rw [leftStatus,rightStatus,limit,sameBody]
  · rw [leftBody,rightBody,limit,sameBody]
  · intro value answer read answered
    rw [leftStatus,leftBody]
    simp only [Endpoint.verdict,read,answered,and_self]

/-- One service has the text in its cache, the other has neither a cache nor a limiter. -/
theorem transform_history_independent_cached :
    let first : Setup := ⟨1,.clamped 60 2 0,0⟩
    let second : Setup := ⟨0,.clamped 0 0 0,0⟩
    let left : Request := {
      method := utf8 "POST", target := utf8 "/v1/sql/sanitize", body := utf8 "\x7b\"text\":\"a;\"\x7d"
      remote := utf8 "10.0.0.1:80", freshId := [] }
    let right : Request := {
      left with target := utf8 "/v1/sql/sanitize?x", headers := [(utf8 "X-Real-IP",utf8 "10.0.0.2")] }
    let busy := (first.service : Service Rat).after [.request left,.sleep 5]
    let idle := (second.service : Service Rat).after []
    (left.PostsTo .sanitize ∧ right.PostsTo .sanitize ∧ busy.admits left = true ∧ idle.admits right = true) ∧
      (busy.handle left).response.status = 200 ∧ (idle.handle right).response.status = 200 ∧
      (busy.handle left).response.body = (idle.handle right).response.body := by
  intro first second left right busy idle
  have leftPosted : left.PostsTo .sanitize := ⟨rfl,by decide +kernel⟩
  have rightPosted : right.PostsTo .sanitize := ⟨rfl,by decide +kernel⟩
  have leftAdmitted : busy.admits left = true := by decide +kernel
  have rightAdmitted : idle.admits right = true := by decide +kernel
  have read : readBody first.limit? left.body = .ok (.object [(utf8 "text",.string (utf8 "a;"))]) := by rfl
  have answered : (Endpoint.answer? .sanitize (.object [(utf8 "text",.string (utf8 "a;"))])).isSome = true := by
    decide +kernel
  obtain ⟨answer,answered⟩ := Option.isSome_iff_exists.mp answered
  obtain ⟨status,body,decoded⟩ := transform_history_independent first second rfl [.request left,.sleep 5] []
    .sanitize (by decide) left right leftPosted rightPosted rfl leftAdmitted rightAdmitted
  have fine := (decoded _ answer read answered).1
  exact ⟨⟨leftPosted,rightPosted,leftAdmitted,rightAdmitted⟩,fine,status ▸ fine,body⟩

end Service
end SqlTidy.Http
