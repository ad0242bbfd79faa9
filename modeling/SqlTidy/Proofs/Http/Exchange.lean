import SqlTidy.Proofs.Http.BodyLimit
import SqlTidy.Proofs.Json.RoundTrip
import SqlTidy.Proofs.Sql.Validity

/-! Transforms as they are seen from outside. A valid text that is written into a body is
read out of it as it was, and what the transform makes of it is read out of the response
as it was, so that the service gives for a text what the transform gives for it. -/
namespace SqlTidy.Http
open Json

/-- The body that asks for a transform of a text. -/
def textRequest (name : String) (text : Bytes) : Json := .object [(utf8 name,.string text)]

/-- The body that asks for a text to be sanitized. -/
def sanitizeRequest (text : Bytes) (options : Options) : Json :=
  .object [(utf8 "text",.string text),(utf8 "extract_code_block",.bool options.extract),
    (utf8 "remove_limit",.bool options.removeLimit),(utf8 "add_quotes",.bool options.addQuotes)]

theorem textBody?_textRequest (name : String) (own : isKeyOf name (utf8 name) = true) (text : Bytes) :
    textBody? name (textRequest name text) = some text := by
  simp [textRequest,textBody?,textField?,valuesOf,own,asText?]

theorem sanitizeBody?_sanitizeRequest (text : Bytes) (options : Options) :
    sanitizeBody? (sanitizeRequest text options) = some (text,options) := by
  rfl

theorem readBody_of_fits (limit : Option Nat) (body : Bytes) (fits : ∀ most ∈ limit, body.length ≤ most) (value : Json)
    (spelled : ofText? body = some value) : readBody limit body = .ok value := by
  have read : ∃ rest, read body = .done value rest := by
    simp only [ofText?] at spelled
    split at spelled
    next found rest reading =>
      split at spelled
      next => exact ⟨rest,Option.some.inj spelled ▸ reading⟩
      next => simp at spelled
    next => simp at spelled
  obtain ⟨rest,reading⟩ := read
  rcases shortage_cases limit body with ⟨most,rfl,cut,_⟩ | ⟨whole,short⟩
  · have room := fits most rfl
    omega
  · rw [readBody_eq,whole,reading,short]
    simp

/-- A service so set up answers every body that spells the request and that no limit cuts
with 200 and a spelling of the reply, after any history and if the limiter lets it through. -/
def Setup.Answers (setup : Setup) (α : Type) [Tokens α] (endpoint : Endpoint) (request reply : Json) : Prop :=
  ∀ body response, ofText? body = some request → setup.maxBytes ≤ 0 ∨ body.length ≤ setup.maxBytes →
    setup.Gives α endpoint body response → response.status = 200 ∧ ofText? response.body = some reply

namespace Setup

variable {α : Type} [Tokens α]

theorem limit?_fits (setup : Setup) (body : Bytes) (room : setup.maxBytes ≤ 0 ∨ body.length ≤ setup.maxBytes) :
    ∀ most ∈ setup.limit?, body.length ≤ most := by
  intro most limited
  by_cases free : setup.maxBytes ≤ 0
  · simp [setup.limit?_of_nonpos free] at limited
  · rw [setup.limit?_of_pos (by omega)] at limited
    obtain rfl := Option.some.inj limited
    omega

theorem answers_of_answer? (setup : Setup) (endpoint : Endpoint) (transform : endpoint ≠ .health) (request reply : Json)
    (answered : endpoint.answer? request = some reply) (spelled : ofText? reply.write = some reply) :
    setup.Answers α endpoint request reply := by
  intro body response written room gives
  obtain ⟨status,text⟩ := gives.verdict transform
  have read := readBody_of_fits setup.limit? body (setup.limit?_fits body room) request written
  have verdict : endpoint.verdict setup.limit? body = ⟨200,reply⟩ := by simp only [Endpoint.verdict,read,answered]
  rw [verdict] at status text
  exact ⟨status,by rw [text,spelled]⟩

/-- The service transforms a valid text as the library does. The usual spelling of a request
is one of its spellings, and each of them gets a response that spells the result. -/
theorem answers_transform (setup : Setup) (text : Bytes) (valid : isUtf8 text = true) (options : Options) :
    (ofText? (sanitizeRequest text options).write = some (sanitizeRequest text options) ∧
      setup.Answers α .sanitize (sanitizeRequest text options)
        (.object [(utf8 "sql",.string (sanitize options text).sql),(utf8 "error",.string []),
          (utf8 "extracted",.bool (sanitize options text).extracted)])) ∧
    (ofText? (textRequest "text" text).write = some (textRequest "text" text) ∧
      setup.Answers α .clean (textRequest "text" text) (.object [(utf8 "sql",.string (clean text))])) ∧
    ofText? (textRequest "sql" text).write = some (textRequest "sql" text) ∧
      setup.Answers α .removeLimit (textRequest "sql" text) (.object [(utf8 "sql",.string (removeLimit text))]) ∧
      setup.Answers α .addQuotes (textRequest "sql" text)
        (.object [(utf8 "sql",.string (addQuotes text)),(utf8 "error",.string [])]) := by
  have sql : isUtf8 (utf8 "sql") = true := by decide +kernel
  have error : isUtf8 (utf8 "error") = true := by decide +kernel
  have one (key text : Bytes) (name : isUtf8 key = true) (valid : isUtf8 text = true) :
      ofText? (Json.object [(key,.string text)]).write = some (.object [(key,.string text)]) :=
    ofText?_written _ (by simp [name,isLeaf,valid])
  refine ⟨⟨?_,?_⟩,⟨?_,?_⟩,?_,?_,?_⟩
  · refine ofText?_written _ ?_
    simp only [List.forall_mem_cons,isLeaf,valid]
    decide +kernel
  · refine setup.answers_of_answer? .sanitize (by decide) _ _ ?_ (ofText?_written _ ?_)
    · rw [Endpoint.answer?,sanitizeBody?_sanitizeRequest]
      rfl
    · simp only [List.forall_mem_cons,isLeaf,isUtf8_sanitize options text valid,sql,error]
      decide +kernel
  · exact one _ _ (by decide +kernel) valid
  · refine setup.answers_of_answer? .clean (by decide) _ _ ?_ (one _ _ sql (isUtf8_clean text valid))
    rw [Endpoint.answer?,textBody?_textRequest "text" (by decide +kernel)]
    rfl
  · exact one _ _ sql valid
  · refine setup.answers_of_answer? .removeLimit (by decide) _ _ ?_ (one _ _ sql (isUtf8_removeLimit text valid))
    rw [Endpoint.answer?,textBody?_textRequest "sql" (by decide +kernel)]
    rfl
  · refine setup.answers_of_answer? .addQuotes (by decide) _ _ ?_ (ofText?_written _ ?_)
    · rw [Endpoint.answer?,textBody?_textRequest "sql" (by decide +kernel)]
      rfl
    · simp [sql,error,isLeaf,isUtf8_addQuotes text valid]

/-- A text of which a block is taken, a clause cut and an identifier quoted. -/
theorem answers_transform_block :
    let setup : Setup := ⟨1,.clamped 60 2 0,200⟩
    let text := utf8 "```sql\nSELECT `é<` LIMIT 5;\n```"
    let options : Options := ⟨true,true,true⟩
    let request : Request := {
      method := utf8 "POST", target := utf8 "/v1/sql/sanitize", body := (sanitizeRequest text options).write
      remote := utf8 "10.0.0.1:80", freshId := [] }
    let response := ((setup.service : Service Rat).handle request).response
    (isUtf8 text = true ∧ request.body.length ≤ setup.maxBytes ∧ setup.Gives Rat .sanitize request.body response) ∧
      response.status = 200 ∧
      ofText? response.body = some (.object [(utf8 "sql",.string (utf8 "SELECT \"é<\"")),(utf8 "error",.string []),
        (utf8 "extracted",.bool true)]) := by
  intro setup text options request response
  have valid : isUtf8 text = true := by decide +kernel
  have room : request.body.length ≤ setup.maxBytes := by decide +kernel
  have given : setup.Gives Rat .sanitize request.body response :=
    ⟨[],request,⟨rfl,by decide +kernel⟩,rfl,by decide +kernel,rfl⟩
  have result : sanitize options text = ⟨utf8 "SELECT \"é<\"",true⟩ := by decide +kernel
  obtain ⟨⟨spelled,answers⟩,_⟩ := answers_transform (α := Rat) setup text valid options
  have answer := answers request.body response spelled (.inr room) given
  rw [result] at answer
  exact ⟨⟨valid,room,given⟩,answer⟩

end Setup
end SqlTidy.Http
