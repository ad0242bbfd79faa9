import SqlTidy.Proofs.Http.Advice
import SqlTidy.Proofs.Http.Identifiers

/-! What a request leaves behind: one identifier, which is in the response and in every entry
that is logged for the request, and one record of its end, which comes last. Whatever stage
answers, the entries before that record tell by their kind whether the request was refused or
its body too large. -/
namespace SqlTidy.Http

/-- What is logged about a request before its end, given the status of the response. -/
structure Recorded (id : Bytes) (status : Nat) (logs : List Log.Entry) : Prop where
  known : status ∈ [200,400,404,413,429]
  carried : ∀ entry ∈ logs, entry.fields.lookup "request_id" = some (.text id)
  unfinished : ∀ entry ∈ logs, entry.message ≠ "Request completed"
  refused : (∃ entry ∈ logs, entry.level = .warn ∧ entry.message = "Rate limit exceeded") ↔ status = 429
  failed : (∃ entry ∈ logs, entry.level = .error ∧ entry.message = "Request failed") ↔ status = 413

namespace Recorded

theorem silent (id : Bytes) (status : Nat) (known : status ∈ [200,400,404]) : Recorded id status [] := by
  simp only [List.mem_cons,List.not_mem_nil,or_false] at known
  rcases known with rfl | rfl | rfl <;> exact ⟨by decide,by simp,by simp,by simp,by simp⟩

theorem single (id : Bytes) (status : Nat) (entry : Log.Entry) (known : status ∈ [200,400,404,413,429])
    (unfinished : entry.message ≠ "Request completed")
    (refused : entry.level = .warn ∧ entry.message = "Rate limit exceeded" ↔ status = 429)
    (failed : entry.level = .error ∧ entry.message = "Request failed" ↔ status = 413) :
    Recorded id status ([entry].map (·.within [("request_id",.text id)])) where
  known := known
  carried := by simp [Log.Entry.within]
  unfinished := by simpa [Log.Entry.within] using unfinished
  refused := by simpa [Log.Entry.within] using refused
  failed := by simpa [Log.Entry.within] using failed

end Recorded

/-- What an endpoint can log, by the status of its reply. -/
inductive Endpoint.Logs (path : Bytes) : Nat → List Log.Entry → Prop
  | quiet : Logs path 200 []
  | sanitized (text : Bytes) (result : Result) : Logs path 200 [sanitizedEntry text result]
  | invalid : Logs path 400 []
  | tooLarge (reason : Bytes) : Logs path 413
    [{ level := .error, message := "Request failed", fields := [("path",.text path),("error",.text reason)] }]

theorem Endpoint.run_logs (endpoint : Endpoint) (path : Bytes) (limit : Option Nat) (body : Bytes) (cache : Cache) :
    Logs path (endpoint.run path limit body cache).reply.status (endpoint.run path limit body cache).logs := by
  rcases endpoint.run_cases path limit body cache with ⟨fault,ran⟩ | ⟨_,reply,fine,ran⟩ | ⟨_,text,options,ran⟩
  · rw [ran]
    cases fault with
    | invalid => exact .invalid
    | tooLarge limit => exact .tooLarge _
  · rw [ran]
    exact fine ▸ .quiet
  · rw [ran]
    exact .sanitized _ _

theorem Endpoint.Logs.recorded {path : Bytes} {status : Nat} {logs : List Log.Entry} (logged : Logs path status logs)
    (id : Bytes) : Recorded id status (logs.map (·.within [("request_id",.text id)])) := by
  cases logged with
  | quiet => exact .silent id 200 (by decide)
  | invalid => exact .silent id 400 (by decide)
  | sanitized text result =>
    exact .single id 200 _ (by decide) (by simp [sanitizedEntry]) (by simp [sanitizedEntry]) (by simp [sanitizedEntry])
  | tooLarge reason => exact .single id 413 _ (by decide) (by simp) (by simp) (by simp)

theorem recorded_refusal (client : Client) (limit : Int) (id : Bytes) :
    Recorded id 429 ([refusedEntry client limit].map (·.within [("request_id",.text id)])) :=
  .single id 429 _ (by decide) (by simp [refusedEntry]) (by simp [refusedEntry]) (by simp [refusedEntry])

/-- The stages of a service as it is offered: the identifier and the log come first. -/
theorem Layout.stages_standard (limited : Bool) (maxBytes : Int) (endpoint : Option Endpoint) :
    ∃ later, (Layout.standard limited maxBytes).stages endpoint = .requestId :: .accessLog :: later ∧
      ∀ stage ∈ later, stage = .bodyLimit ∨ stage = .rateLimit := by
  unfold stages
  split
  next =>
    refine ⟨(Layout.standard limited maxBytes).onTransforms,rfl,?_⟩
    cases limited <;> simp [Layout.standard]
  next => exact ⟨[],rfl,by simp⟩

theorem Request.id_eq (request : Request) :
    request.id = if RequestId.isValid (request.header "X-Request-ID") then trim (request.header "X-Request-ID")
      else request.freshId := by
  simp only [Request.id,RequestId.isValid_trim]

namespace Service

variable {α : Type} [Tokens α]

/-- Behind the first two stages every stage keeps the identifier, and whichever answers leaves
a record. -/
theorem pass_recorded (request : Request) (endpoint : Option Endpoint) (stages : List Stage) (notes : Notes)
    (service : Service α) (id : Bytes) (later : ∀ stage ∈ stages, stage = .bodyLimit ∨ stage = .rateLimit)
    (header : notes.headers.lookup "X-Request-Id" = some id) (log : notes.log = some [("request_id",.text id)]) :
    let answer := pass request endpoint stages notes service
    answer.response.headers.lookup "X-Request-Id" = some id ∧ Recorded id answer.response.status answer.logs := by
  induction stages generalizing notes service with
  | nil =>
    cases endpoint with
    | none =>
      refine ⟨?_,.silent id 404 (by decide)⟩
      simp [pass,serve,Response.notFound,Headers.lookup_set,header]
    | some endpoint =>
      refine ⟨?_,?_⟩
      · simp [pass,serve,Response.json,Headers.lookup_set,header]
      · simp only [pass,serve,Response.json,Notes.written,log]
        exact (endpoint.run_logs _ _ _ _).recorded id
  | cons stage stages ih =>
    obtain ⟨first,rest⟩ := List.forall_mem_cons.mp later
    rcases first with rfl | rfl
    · exact ih _ service rest header log
    · have counted (remaining limit : Int) :
          (notes.withStanding remaining limit).headers.lookup "X-Request-Id" = some id := by
        simp [Notes.withStanding,Headers.lookup_set,header]
      simp only [pass]
      split
      next => exact ih _ _ rest (counted _ _) log
      next =>
        refine ⟨?_,?_⟩
        · simp [refusal,Response.json,Headers.lookup_set,counted]
        · simp only [refusal,Response.json,Notes.written,log]
          exact recorded_refusal _ _ id

/-- The stage of the log puts the record of the end behind what was logged before. -/
theorem handle_recorded (service : Service α) (limited : Bool) (maxBytes : Int)
    (layout : service.layout = .standard limited maxBytes) (request : Request)
    (direct : service.layout.redirects request.method request.path = false) :
    let answer := service.handle request
    answer.response.headers.lookup "X-Request-Id" = some request.id ∧
      ∃ before path, Recorded request.id answer.response.status before ∧
        answer.logs = before ++ [(completedEntry request.method path answer.response.status).within
          [("request_id",.text request.id)]] := by
  obtain ⟨later,stages,only⟩ :=
    Layout.stages_standard limited maxBytes (service.layout.find? request.method request.path)
  have header : (({} : Notes).withId request.id).headers.lookup "X-Request-Id" = some request.id := by
    simp [Notes.withId,Headers.lookup_set]
  obtain ⟨shown,recorded⟩ := pass_recorded request (service.layout.find? request.method request.path) later
    (({} : Notes).withId request.id).withLog service request.id only header rfl
  rw [← layout] at stages
  simp only [handle,direct,stages,pass,Bool.false_eq_true,if_false]
  exact ⟨shown,_,_,recorded,rfl⟩

end Service

/-- After any history, a request that is not redirected leaves one identifier behind: that of
the client without the white space around it if it is accepted, else a fresh one. The response
has it and every entry logged for the request. The last entry, and no other, is the record of
the end, with the status of the response. There is a warning of the limit exactly if the
request was refused, and an error exactly if its body was too large. -/
theorem Service.handle_leaves_record {α : Type} [Tokens α] (setup : Setup) (history : List Event) (request : Request)
    (direct : ((setup.service : Service α).after history).layout.redirects request.method request.path = false) :
    let answer := ((setup.service : Service α).after history).handle request
    let own := request.header "X-Request-ID"
    let id := if RequestId.isValid own then trim own else request.freshId
    answer.response.status ∈ [200,400,404,413,429] ∧
    answer.response.headers.lookup "X-Request-Id" = some id ∧
    (∀ entry ∈ answer.logs, entry.fields.lookup "request_id" = some (.text id)) ∧
    (∃ before last, answer.logs = before ++ [last] ∧ last.level = .debug ∧ last.message = "Request completed" ∧
      last.fields.lookup "status" = some (.int answer.response.status) ∧
      ∀ entry ∈ before, entry.message ≠ "Request completed") ∧
    ((∃ entry ∈ answer.logs, entry.level = .warn ∧ entry.message = "Rate limit exceeded") ↔
      answer.response.status = 429) ∧
    ((∃ entry ∈ answer.logs, entry.level = .error ∧ entry.message = "Request failed") ↔
      answer.response.status = 413) := by
  intro answer own id
  have layout := after_layout (setup.service : Service α) history
  obtain ⟨shown,before,path,recorded,logs⟩ := handle_recorded _ _ _ layout request direct
  change answer.logs = _ at logs
  have same : request.id = id := request.id_eq
  rw [same] at shown recorded logs
  -- The last entry is neither a warning nor an error, so that only those before it count.
  have before_only (level : Log.Level) (message : String) (other : level ≠ .debug) :
      (∃ entry ∈ answer.logs, entry.level = level ∧ entry.message = message) ↔
        ∃ entry ∈ before, entry.level = level ∧ entry.message = message := by
    simp [logs,Log.Entry.within,completedEntry,or_and_right,exists_or,other.symm]
  refine ⟨recorded.known,shown,?_,⟨before,_,logs,rfl,rfl,rfl,recorded.unfinished⟩,?_,?_⟩
  · intro entry member
    rw [logs] at member
    rcases List.mem_append.mp member with earlier | last
    · exact recorded.carried entry earlier
    · rw [List.mem_singleton.mp last]
      rfl
  · rw [before_only .warn _ (by decide)]
    exact recorded.refused
  · rw [before_only .error _ (by decide)]
    exact recorded.failed

/-- The second request of a client that may send one is refused; its own identifier, in
capitals and between blanks, is in the response and in both entries. -/
theorem Service.handle_leaves_record_refused :
    let setup : Setup := ⟨0,.clamped 1 1 0,0⟩
    let request : Request := {
      method := utf8 "POST", target := utf8 "/v1/sql/clean", body := utf8 "\x7b\"text\":\"a\"\x7d"
      headers := [(utf8 "x-request-id",utf8 " 3F2B8C1E-9A4D-4E6F-8B7A-1C2D3E4F5A6B ")]
      remote := utf8 "10.0.0.1:80", freshId := utf8 "fresh" }
    let service := (setup.service : Service Rat).after [.request request]
    let answer := service.handle request
    let id := utf8 "3F2B8C1E-9A4D-4E6F-8B7A-1C2D3E4F5A6B"
    service.layout.redirects request.method request.path = false ∧ answer.response.status = 429 ∧
      answer.response.headers.lookup "X-Request-Id" = some id ∧ answer.logs.length = 2 ∧
      (∀ entry ∈ answer.logs, entry.fields.lookup "request_id" = some (.text id)) ∧
      ∃ entry ∈ answer.logs, entry.level = .warn ∧ entry.message = "Rate limit exceeded" := by
  intro setup request service answer id
  have direct : service.layout.redirects request.method request.path = false := by decide +kernel
  have refused : answer.response.status = 429 := by decide +kernel
  have same : (if RequestId.isValid (request.header "X-Request-ID") then trim (request.header "X-Request-ID")
      else request.freshId) = id := by decide +kernel
  obtain ⟨_,shown,carried,_,warned,_⟩ := handle_leaves_record setup [.request request] request direct
  rw [same] at shown carried
  exact ⟨direct,refused,shown,by decide +kernel,carried,warned.mpr refused⟩

end SqlTidy.Http
