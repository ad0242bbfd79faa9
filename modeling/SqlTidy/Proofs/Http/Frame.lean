import SqlTidy.Proofs.Cache.Inclusion
import SqlTidy.Proofs.Http.Admission

/-! What a request may change. All that a request can do is listed once, by whether it asks
for a transform and whether it is refused. The cache changes only by a sanitized text,
so that its counts tell how many texts were sanitized, and the limiter changes only in
the bucket of the client that the request counts for. -/
namespace SqlTidy

/-- A cache holds no more than it has room for, which may be nothing. -/
theorem Cache.after_size (room : Nat) (calls : List Call) : (({ capacity := room } : Cache).after calls).size ≤ room := by
  rw [size,after_entries,List.length_map]
  exact List.length_take_le room _

end SqlTidy

namespace SqlTidy.Http

instance (request : Request) (endpoint : Endpoint) : Decidable (request.PostsTo endpoint) :=
  inferInstanceAs (Decidable (_ ∧ _))

def Request.AsksHealth (request : Request) : Prop := request.method = utf8 "GET" ∧ request.path = utf8 "/health"

/-- The report on a service by its numbers. -/
def healthReport (size hits misses : Nat) : Json :=
  .object [(utf8 "status",Json.ofString "ok"),(utf8 "cache_size",Json.ofNat size),(utf8 "cache_hits",Json.ofNat hits),
    (utf8 "cache_misses",Json.ofNat misses)]

namespace Endpoint

/-- An endpoint leaves the cache alone, or it has sanitized a text. -/
theorem run_cache (endpoint : Endpoint) (path : Bytes) (limit : Option Nat) (body : Bytes) (cache : Cache) :
    let outcome := endpoint.run path limit body cache
    ((endpoint = sanitize ∧ outcome.reply.status = 200) ∧ ∃ call, outcome.cache = (cache.call call).2) ∨
      (¬(endpoint = sanitize ∧ outcome.reply.status = 200) ∧ outcome.cache = cache) := by
  rcases endpoint.run_cases path limit body cache with ⟨fault,ran⟩ | ⟨other,reply,_,ran⟩ | ⟨same,text,options,ran⟩
  · have refused : (Reply.ofFault fault).status ≠ 200 := by cases fault <;> simp [Reply.ofFault,Reply.object]
    simp [ran,refused]
  · simp [ran,other]
  · exact .inl ⟨⟨same,by rw [ran]; rfl⟩,⟨options,text⟩,by rw [ran]; rfl⟩

end Endpoint

namespace Layout

theorem find?_health (limited : Bool) (maxBytes : Int) (request : Request) (asks : request.AsksHealth) :
    (standard limited maxBytes).find? request.method request.path = some .health := by
  rw [asks.1,asks.2]
  rfl

theorem find?_of_other (limited : Bool) (maxBytes : Int) (request : Request) (other : request.asksTransform = false) :
    (standard limited maxBytes).find? request.method request.path = none ∨
      (standard limited maxBytes).find? request.method request.path = some .health := by
  cases found : (standard limited maxBytes).find? request.method request.path with
  | none => exact .inl rfl
  | some endpoint =>
    by_cases health : endpoint = .health
    · exact .inr (by rw [health])
    · have asks := request.asksTransform_iff.mpr ⟨endpoint,health,find?_standard _ _ _ _ health found⟩
      simp [asks] at other

end Layout

namespace Service

variable {α : Type} [Tokens α]

theorem handle_unrouted (service : Service α) (limited : Bool) (maxBytes : Int)
    (layout : service.layout = .standard limited maxBytes) (request : Request)
    (unrouted : (Layout.standard limited maxBytes).find? request.method request.path = none ∨
      (Layout.standard limited maxBytes).find? request.method request.path = some .health) :
    (service.handle request).service = service := by
  simp only [handle,layout]
  split
  next => rfl
  next =>
    rcases unrouted with found | found
    · rw [found]
      rfl
    · rw [found]
      rfl

/-- All that a request can do to a service. -/
theorem handle_cases (service : Service α) (limited : Bool) (maxBytes : Int)
    (layout : service.layout = .standard limited maxBytes) (request : Request) :
    let answer := service.handle request
    (request.asksTransform = false ∧ answer.service = service) ∨
    (request.asksTransform = true ∧ answer.response.status = 429 ∧
      answer.service = { service with limiter := (service.limiter.allow request.client).2 }) ∨
    ∃ endpoint outcome, endpoint ≠ Endpoint.health ∧ request.PostsTo endpoint ∧
      outcome = endpoint.run (service.layout.pathOf endpoint) service.layout.limit? request.body service.cache ∧
      answer.response.status = outcome.reply.status ∧
      answer.service = { service with
        cache := outcome.cache
        limiter := if limited then (service.limiter.allow request.client).2 else service.limiter } := by
  intro answer
  cases asks : request.asksTransform with
  | false =>
    have unrouted := Layout.find?_of_other limited maxBytes request asks
    exact .inl ⟨rfl,handle_unrouted service limited maxBytes layout request unrouted⟩
  | true =>
    obtain ⟨endpoint,transform,posted⟩ := request.asksTransform_iff.mp asks
    have handled := handle_posted service limited maxBytes layout endpoint transform request posted
    cases limited with
    | false =>
      refine .inr (.inr ⟨endpoint,_,transform,posted,rfl,?_,?_⟩)
      · simp only [answer,handled]
        rfl
      · simp only [answer,handled]
        rfl
    | true =>
      simp only [if_true,List.cons_append,List.nil_append,pass] at handled
      cases allowed : (service.limiter.allow request.client).1 with
      | false =>
        rw [allowed] at handled
        refine .inr (.inl ⟨rfl,?_,?_⟩)
        · simp only [answer,handled]
          rfl
        · simp only [answer,handled]
          rfl
      | true =>
        rw [allowed] at handled
        refine .inr (.inr ⟨endpoint,_,transform,posted,rfl,?_,?_⟩)
        · simp only [answer,handled]
          rfl
        · simp only [answer,handled]
          rfl

theorem handle_cache (service : Service α) (limited : Bool) (maxBytes : Int)
    (layout : service.layout = .standard limited maxBytes) (request : Request) :
    let answer := service.handle request
    ((request.PostsTo .sanitize ∧ answer.response.status = 200) ∧
      ∃ call, answer.service.cache = (service.cache.call call).2) ∨
    (¬(request.PostsTo .sanitize ∧ answer.response.status = 200) ∧ answer.service.cache = service.cache) := by
  intro answer
  rcases service.handle_cases limited maxBytes layout request with
    ⟨other,same⟩ | ⟨_,refused,same⟩ | ⟨endpoint,outcome,transform,posted,ran,status,same⟩
  · refine .inr ⟨?_,by rw [same]⟩
    rintro ⟨posted,_⟩
    have asks := request.asksTransform_iff.mpr ⟨.sanitize,by decide,posted⟩
    simp [asks] at other
  · refine .inr ⟨?_,by rw [same]⟩
    rintro ⟨_,fine⟩
    exact absurd (refused.symm.trans fine) (by decide)
  · have only : request.PostsTo .sanitize ↔ endpoint = .sanitize := by
      constructor
      · intro other
        have paths := posted.2.symm.trans other.2
        revert paths
        cases endpoint <;> decide
      · rintro rfl
        exact posted
    rw [only,status,same,ran]
    exact endpoint.run_cache _ _ _ _

/-- How many texts a history sanitizes: the requests for it that are answered with 200. -/
def sanitizations (service : Service α) : List Event → Nat
  | [] => 0
  | .sleep ns :: events => (service.step (.sleep ns)).sanitizations events
  | .request request :: events =>
    (if request.PostsTo .sanitize ∧ (service.handle request).response.status = 200 then 1 else 0) +
      (service.step (.request request)).sanitizations events

theorem after_cache (service : Service α) (limited : Bool) (maxBytes : Int)
    (layout : service.layout = .standard limited maxBytes) (events : List Event) :
    ∃ calls, (service.after events).cache = service.cache.after calls ∧ calls.length = service.sanitizations events := by
  induction events generalizing service with
  | nil => exact ⟨[],rfl,rfl⟩
  | cons event events ih =>
    obtain ⟨calls,later,count⟩ := ih (service.step event) ((step_layout service event).trans layout)
    cases event with
    | sleep ns => exact ⟨calls,later,count⟩
    | request request =>
      rcases service.handle_cache limited maxBytes layout request with ⟨sanitized,call,changed⟩ | ⟨other,same⟩
      · refine ⟨call :: calls,?_,?_⟩
        · change (service.step (.request request)).cache = _ at changed
          rw [changed] at later
          exact later
        · rw [sanitizations,if_pos sanitized,List.length_cons,count,Nat.add_comm]
      · refine ⟨calls,?_,?_⟩
        · change (service.step (.request request)).cache = _ at same
          rw [same] at later
          exact later
        · rw [sanitizations,if_neg other,count,Nat.zero_add]

theorem handle_buckets (service : Service α) (limited : Bool) (maxBytes : Int)
    (layout : service.layout = .standard limited maxBytes) (request : Request) (client : Client)
    (other : client ≠ request.client) :
    (service.handle request).service.limiter.bucket? client = service.limiter.bucket? client := by
  have asked : (service.limiter.allow request.client).2.bucket? client = service.limiter.bucket? client := by
    rw [Limiter.allow,Limiter.bucket?_put,if_neg other]
  rcases service.handle_cases limited maxBytes layout request with
    ⟨_,same⟩ | ⟨_,_,same⟩ | ⟨_,_,_,_,_,_,same⟩
  · rw [same]
  · rw [same]
    exact asked
  · rw [same]
    cases limited with
    | false => rfl
    | true => exact asked

theorem handle_health (service : Service α) (limited : Bool) (maxBytes : Int)
    (layout : service.layout = .standard limited maxBytes) (request : Request) (asks : request.AsksHealth) :
    (service.handle request).response.status = 200 ∧
      (service.handle request).response.body =
        (healthReport service.cache.size service.cache.hits service.cache.misses).write := by
  have found := Layout.find?_health limited maxBytes request asks
  have direct : (Layout.standard limited maxBytes).redirects request.method request.path = false := by
    rw [asks.1,asks.2]
    rfl
  simp only [handle,layout,direct,found,Bool.false_eq_true,if_false]
  exact ⟨rfl,rfl⟩

/-- After any history a request changes the cache only if it has a text sanitized, and the
report on the service counts the requests that had. It changes no bucket but that of its
own client, and this one only if it is for a transform; a request for the report, for
nothing that is offered or for a path with one slash too many changes nothing at all. -/
theorem handle_changes_little (setup : Setup) (history : List Event) :
    let service := (setup.service : Service α).after history
    (∀ ns, (service.step (.sleep ns)).cache = service.cache) ∧
    (∀ request : Request, request.AsksHealth → ∃ size hits misses,
      (service.handle request).response.status = 200 ∧
      (service.handle request).response.body = (healthReport size hits misses).write ∧
      size ≤ setup.cacheSize ∧
      (1 ≤ setup.cacheSize → hits + misses = (setup.service : Service α).sanitizations history)) ∧
    ∀ request : Request,
      let answer := service.handle request
      (answer.service.cache ≠ service.cache → request.PostsTo .sanitize ∧ answer.response.status = 200) ∧
      (answer.response.status ∈ [400,413,429] → answer.service.cache = service.cache) ∧
      (request.AsksHealth ∨ service.layout.find? request.method request.path = none ∨
        service.layout.redirects request.method request.path = true → answer.service = service) ∧
      (answer.service.limiter ≠ service.limiter → ∃ endpoint, endpoint ≠ .health ∧ request.PostsTo endpoint) ∧
      answer.service.limiter = { service.limiter with buckets := answer.service.limiter.buckets } ∧
      ∀ client, client ≠ request.client → answer.service.limiter.bucket? client = service.limiter.bucket? client := by
  intro service
  have layout : service.layout = .standard (setup.limits.requestsPerMinute > 0) setup.maxBytes :=
    after_layout (setup.service : Service α) history
  obtain ⟨calls,cached,count⟩ := after_cache (setup.service : Service α) _ _ rfl history
  refine ⟨fun _ => rfl,?_,?_⟩
  · intro request asks
    obtain ⟨status,body⟩ := handle_health service _ _ layout request asks
    refine ⟨_,_,_,status,body,?_,?_⟩
    · rw [cached]
      exact Cache.after_size _ calls
    · intro some
      rw [cached,← count]
      exact (Cache.after_remembers _ (Nat.one_le_iff_ne_zero.mp some) calls).counts
  · intro request answer
    have cache := handle_cache service _ _ layout request
    refine ⟨?_,?_,?_,?_,?_,handle_buckets service _ _ layout request⟩
    · intro changed
      rcases cache with ⟨sanitized,_⟩ | ⟨_,same⟩
      · exact sanitized
      · exact absurd same changed
    · intro failed
      rcases cache with ⟨⟨_,fine⟩,_⟩ | ⟨_,same⟩
      · simp [answer,fine] at failed
      · exact same
    · rintro (health | missing | redirected)
      · exact handle_unrouted service _ _ layout request (.inr (Layout.find?_health _ _ request health))
      · exact handle_unrouted service _ _ layout request (.inl (layout ▸ missing))
      · simp only [answer,handle,redirected,if_true]
    · intro changed
      rw [← request.asksTransform_iff]
      by_contra other
      have same := handle_unrouted service _ _ layout request (Layout.find?_of_other _ _ request (by simpa using other))
      exact changed (congrArg Service.limiter same)
    · rcases service.handle_cases _ _ layout request with ⟨_,same⟩ | ⟨_,_,same⟩ | ⟨_,_,_,_,_,_,same⟩
      · simp only [answer,same]
      · simp only [answer,same]
        rfl
      · simp only [answer,same]
        split <;> rfl

/-- A text is sanitized twice, and a request with no text in between is refused: the report
counts two. -/
theorem handle_changes_little_counted :
    let setup : Setup := ⟨1,.clamped 60 5 0,0⟩
    let post : Request := {
      method := utf8 "POST", target := utf8 "/v1/sql/sanitize", body := utf8 "\x7b\"text\":\"a;\"\x7d"
      remote := utf8 "10.0.0.1:80", freshId := [] }
    let empty : Request := { post with body := [] }
    let health : Request := { post with method := utf8 "GET", target := utf8 "/health" }
    let service := (setup.service : Service Rat).after [.request post,.request empty,.sleep 5,.request post]
    (health.AsksHealth ∧ 1 ≤ setup.cacheSize) ∧ (service.handle health).service = service ∧
      ∃ size hits misses, (service.handle health).response.body = (healthReport size hits misses).write ∧
        size ≤ 1 ∧ hits + misses = 2 := by
  intro setup post empty health service
  have asks : health.AsksHealth := ⟨rfl,by decide +kernel⟩
  obtain ⟨_,report,quiet⟩ := @handle_changes_little Rat _ setup [.request post,.request empty,.sleep 5,.request post]
  obtain ⟨size,hits,misses,_,body,small,counts⟩ := report health asks
  have twice : (setup.service : Service Rat).sanitizations
      [.request post,.request empty,.sleep 5,.request post] = 2 := by decide +kernel
  exact ⟨⟨asks,by decide⟩,(quiet health).2.2.1 (.inl asks),size,hits,misses,body,small,
    (counts (by decide)).trans twice⟩

end Service
end SqlTidy.Http
