import SqlTidy.Proofs.Http.History
import SqlTidy.Proofs.Json.Stream

/-! The limit on bodies. A body that is cut never passes for a whole one: either the cut shows,
and the answer is that the body is too large, or the answer is the one without a limit. A
larger limit changes no answer but that one. -/
namespace SqlTidy.Http
open Json Json.Reading

/-- The part of a body that a limit leaves. -/
def visible (limit : Option Nat) (body : Bytes) : Bytes :=
  match limit with
  | some limit => body.take limit
  | none => body

theorem visible_start (limit : Option Nat) (body : Bytes) : visible limit body <+: body := by
  cases limit with
  | none => exact List.prefix_rfl
  | some limit => exact List.take_prefix limit body

/-- What a body that is not complete within the limit is. -/
def shortage (limit : Option Nat) (body : Bytes) : BodyFault :=
  match limit with
  | some limit => if limit < body.length then .tooLarge limit else .invalid
  | none => .invalid

theorem shortage_cases (limit : Option Nat) (body : Bytes) :
    (∃ most, limit = some most ∧ most < body.length ∧ shortage limit body = .tooLarge most) ∨
      (visible limit body = body ∧ shortage limit body = .invalid) := by
  cases limit with
  | none => exact .inr ⟨rfl,rfl⟩
  | some most =>
    by_cases cut : most < body.length
    · exact .inl ⟨most,rfl,cut,if_pos cut⟩
    · exact .inr ⟨List.take_of_length_le (Nat.le_of_not_lt cut),if_neg cut⟩

theorem readBody_eq (limit : Option Nat) (body : Bytes) :
    readBody limit body =
      match read (visible limit body) with
      | .done value rest =>
        if value.isContainer || !rest.isEmpty || shortage limit body == .invalid then .ok value
        else .error (shortage limit body)
      | .malformed => .error .invalid
      | .incomplete => .error (shortage limit body) := rfl

theorem readBody_of_visible (limit wider : Option Nat) (body : Bytes) (start : visible limit body <+: visible wider body) :
    (∃ most, limit = some most ∧ most < body.length ∧ readBody limit body = .error (.tooLarge most)) ∨
      readBody wider body = readBody limit body := by
  rcases shortage_cases limit body with ⟨most,limited,cut,short⟩ | ⟨whole,short⟩
  · obtain ⟨more,longer⟩ := start
    have kept := read_kept (visible limit body) more
    rw [longer] at kept
    rw [readBody_eq limit,readBody_eq wider,short]
    cases reading : read (visible limit body) with
    | done value rest =>
      rw [reading] at kept
      by_cases complete : (value.isContainer || !rest.isEmpty) = true
      · right
        have some : value.isContainer = true ∨ rest ≠ [] := by simpa using complete
        have further : (value.isContainer || !(rest ++ more).isEmpty) = true := by
          rcases some with container | left
          · simp [container]
          · simp [left]
        rw [kept some]
        simp only [complete,further,Bool.true_or,if_true]
      · left
        refine ⟨most,limited,cut,?_⟩
        simp [complete]
    | malformed =>
      rw [reading] at kept
      rw [show read (visible wider body) = .malformed from kept]
      exact .inr rfl
    | incomplete => exact .inl ⟨most,limited,cut,rfl⟩
  · right
    rw [whole] at start
    have all : visible wider body = body := (visible_start wider body).eq_of_length_le start.length_le
    have uncut : shortage wider body = .invalid := by
      rcases shortage_cases wider body with ⟨most,rfl,cut,_⟩ | ⟨_,short⟩
      · have length := start.length_le
        rw [visible,List.length_take] at length
        omega
      · exact short
    rw [readBody_eq limit,readBody_eq wider,whole,all,short,uncut]

theorem Endpoint.verdict_of_visible (endpoint : Endpoint) (limit wider : Option Nat) (body : Bytes)
    (start : visible limit body <+: visible wider body) :
    (∃ most, limit = some most ∧ most < body.length ∧ endpoint.verdict limit body = .ofFault (.tooLarge most)) ∨
      endpoint.verdict wider body = endpoint.verdict limit body := by
  rcases readBody_of_visible limit wider body start with ⟨most,limited,cut,short⟩ | same
  · exact .inl ⟨most,limited,cut,by rw [verdict,short]⟩
  · exact .inr (by rw [verdict,verdict,same])

/-- The responses that a service so set up gives to a body, after any history and to any
request that the limiter lets through. -/
def Setup.Gives (setup : Setup) (α : Type) [Tokens α] (endpoint : Endpoint) (body : Bytes) (response : Response) : Prop :=
  ∃ history request, request.PostsTo endpoint ∧ request.body = body ∧
    ((setup.service : Service α).after history).admits request = true ∧
    response = (((setup.service : Service α).after history).handle request).response

namespace Setup

variable {α : Type} [Tokens α]

theorem Gives.verdict {setup : Setup} {endpoint : Endpoint} {body : Bytes} {response : Response}
    (gives : setup.Gives α endpoint body response) (transform : endpoint ≠ .health) :
    response.status = (endpoint.verdict setup.limit? body).status ∧
      response.body = (endpoint.verdict setup.limit? body).value.write := by
  obtain ⟨history,request,posted,rfl,admitted,rfl⟩ := gives
  exact Service.after_transform setup history endpoint transform request posted admitted

theorem limit?_of_pos (setup : Setup) (limited : 0 < setup.maxBytes) : setup.limit? = some setup.maxBytes.toNat :=
  if_pos limited

theorem limit?_of_nonpos (setup : Setup) (free : setup.maxBytes ≤ 0) : setup.limit? = none :=
  if_neg (Int.not_lt.mpr free)

/-- Under a limit a body gets the answer that it is too large or the one that it gets
without a limit. It gets the latter if it is no longer than the limit, and an answer other
than the former stays the same under every larger limit. -/
theorem limit_never_misleads (bounded wider free : Setup) (limited : 0 < bounded.maxBytes)
    (larger : bounded.maxBytes ≤ wider.maxBytes) (unlimited : free.maxBytes ≤ 0) (endpoint : Endpoint)
    (transform : endpoint ≠ .health) (body : Bytes) (answer later plain : Response)
    (given : bounded.Gives α endpoint body answer) (laterGiven : wider.Gives α endpoint body later)
    (plainGiven : free.Gives α endpoint body plain) :
    ((answer.status = 413 ∧
        answer.body = (Json.object [(utf8 "error",Json.ofString "request body too large")]).write) ∨
      (answer.status = plain.status ∧ answer.body = plain.body)) ∧
    (body.length ≤ bounded.maxBytes → answer.status = plain.status ∧ answer.body = plain.body) ∧
    (answer.status ≠ 413 → later.status = answer.status ∧ later.body = answer.body) := by
  obtain ⟨status,text⟩ := given.verdict transform
  obtain ⟨laterStatus,laterText⟩ := laterGiven.verdict transform
  obtain ⟨plainStatus,plainText⟩ := plainGiven.verdict transform
  rw [bounded.limit?_of_pos limited] at status text
  rw [wider.limit?_of_pos (by omega)] at laterStatus laterText
  rw [free.limit?_of_nonpos unlimited] at plainStatus plainText
  have uncut := endpoint.verdict_of_visible (some bounded.maxBytes.toNat) none body (visible_start _ body)
  have more : visible (some bounded.maxBytes.toNat) body <+: visible (some wider.maxBytes.toNat) body :=
    List.take_prefix_take_left (by omega)
  refine ⟨?_,?_,?_⟩
  · rw [status,text,plainStatus,plainText]
    rcases uncut with ⟨most,_,_,cut⟩ | same
    · rw [cut]
      exact .inl ⟨rfl,rfl⟩
    · rw [same]
      exact .inr ⟨rfl,rfl⟩
  · intro fits
    rcases uncut with ⟨most,equal,longer,_⟩ | same
    · have bound := Option.some.inj equal
      omega
    · rw [status,text,plainStatus,plainText,same]
      exact ⟨rfl,rfl⟩
  · intro readable
    rcases endpoint.verdict_of_visible _ _ body more with ⟨most,_,_,cut⟩ | same
    · rw [status,cut] at readable
      exact absurd rfl readable
    · rw [status,text,laterStatus,laterText,same]
      exact ⟨rfl,rfl⟩

/-- The value is complete after thirteen bytes, so that what follows it may be cut off. -/
theorem limit_never_misleads_tail :
    let bounded : Setup := ⟨0,.clamped 0 0 0,13⟩
    let wider : Setup := ⟨1,.clamped 60 2 0,15⟩
    let free : Setup := ⟨0,.clamped 0 0 0,0⟩
    let request : Request := {
      method := utf8 "POST", target := utf8 "/v1/sql/clean", body := utf8 "\x7b\"text\":\"a;\"\x7d tail"
      remote := utf8 "10.0.0.1:80", freshId := [] }
    let answer (setup : Setup) := ((setup.service : Service Rat).handle request).response
    (0 < bounded.maxBytes ∧ bounded.maxBytes ≤ wider.maxBytes ∧ free.maxBytes ≤ 0 ∧
      bounded.Gives Rat .clean request.body (answer bounded) ∧ wider.Gives Rat .clean request.body (answer wider) ∧
      free.Gives Rat .clean request.body (answer free)) ∧
      (answer bounded).status = 200 ∧ (answer wider).status = 200 ∧ (answer wider).body = (answer bounded).body := by
  intro bounded wider free request answer
  have posted : request.PostsTo .clean := ⟨rfl,by decide +kernel⟩
  have given (setup : Setup) (admitted : ((setup.service : Service Rat).after []).admits request = true) :
      setup.Gives Rat .clean request.body (answer setup) := ⟨[],request,posted,rfl,admitted,rfl⟩
  have first := given bounded (by decide +kernel)
  have second := given wider (by decide +kernel)
  have third := given free (by decide +kernel)
  have fine : (answer bounded).status = 200 := by decide +kernel
  obtain ⟨_,_,same⟩ := limit_never_misleads bounded wider free (by decide) (by decide) (by decide) .clean (by decide)
    request.body _ _ _ first second third
  obtain ⟨status,text⟩ := same (by rw [fine]; decide)
  exact ⟨⟨by decide,by decide,by decide,first,second,third⟩,fine,status.trans fine,text⟩

end Setup
end SqlTidy.Http
