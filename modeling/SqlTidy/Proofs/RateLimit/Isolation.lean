import SqlTidy.Proofs.RateLimit.Run

/-! Clients are isolated. Two limiters that agree on the clock and on the bucket of one
client tell that client the same; its own calls, the clock, ticks and a stop keep them
in agreement, and the calls of others do not disturb it on either side. -/
namespace SqlTidy.Limiter

variable {α : Type}

def Event.concerns (client : Client) (event : Event) : Bool := event.client?.all (· == client)

/-- Two limiters in the same state as far as one client can tell. -/
structure Agree (client : Client) (left right : Limiter α) : Prop where
  settings : left.settings = right.settings
  now : left.now = right.now
  stopped : left.stopped = right.stopped
  bucket : left.bucket? client = right.bucket? client

variable [Tokens α]

theorem Agree.bucketOf {client : Client} {left right : Limiter α} (agree : Agree client left right) :
    left.bucketOf client = right.bucketOf client := by
  simp only [Limiter.bucketOf,agree.bucket,agree.settings,agree.now]

theorem Agree.answer {client : Client} {left right : Limiter α} (agree : Agree client left right)
    (event : Event) (own : event.client? = some client) : left.answer? event = right.answer? event := by
  cases event with
  | allow caller =>
    obtain rfl : caller = client := Option.some.inj own
    simp only [answer?,allow,agree.bucketOf,agree.now]
  | standing caller =>
    obtain rfl : caller = client := Option.some.inj own
    simp only [answer?,standing,agree.bucket,agree.settings,agree.now]
  | _ => rfl

theorem Agree.step {client : Client} {left right : Limiter α} (agree : Agree client left right)
    (leftDistinct : left.Distinct) (rightDistinct : right.Distinct) (event : Event) :
    Agree client (left.step event) (right.step event) where
  settings := by simp only [step_settings,agree.settings]
  now := by simp only [step_now,agree.now]
  stopped := by simp only [step_stopped,agree.stopped]
  bucket := by
    rw [bucket?_step left leftDistinct,bucket?_step right rightDistinct]
    cases event <;> simp only [agree.bucket,agree.bucketOf,agree.now,agree.stopped,agree.settings]

theorem Agree.step_other {client : Client} {left right : Limiter α} (agree : Agree client left right)
    (distinct : left.Distinct) (event : Event) (foreign : event.concerns client = false) :
    Agree client (left.step event) right := by
  cases event with
  | allow caller =>
    have other : client ≠ caller := by
      rintro rfl
      simp [Event.concerns,Event.client?] at foreign
    refine ⟨agree.settings,agree.now,agree.stopped,?_⟩
    rw [bucket?_step left distinct,← agree.bucket]
    exact if_neg other
  | standing caller => exact agree
  | _ => simp [Event.concerns,Event.client?] at foreign

theorem Agree.answersTo {client : Client} {left right : Limiter α} (agree : Agree client left right)
    (leftDistinct : left.Distinct) (rightDistinct : right.Distinct) (events : List Event) :
    left.answersTo client events = right.answersTo client (events.filter (·.concerns client)) := by
  -- The right run stands still while the left one takes the calls of others.
  induction events generalizing left right with
  | nil => rfl
  | cons event events ih =>
    cases relevant : event.concerns client with
    | true =>
      have rest := ih (agree.step leftDistinct rightDistinct event)
        (distinct_step left leftDistinct event) (distinct_step right rightDistinct event)
      rw [List.filter_cons_of_pos relevant]
      simp only [Limiter.answersTo,rest]
      split
      next own => rw [agree.answer event own]
      next => rfl
    | false =>
      have foreign : event.client? ≠ some client := by
        intro own
        simp [Event.concerns,own] at relevant
      rw [List.filter_cons_of_neg (by simp [relevant])]
      simp only [Limiter.answersTo,if_neg foreign]
      exact ih (agree.step_other leftDistinct event relevant) (distinct_step left leftDistinct event) rightDistinct

/-- What a client is told in a run of a new limiter is what it is told in the run from
which all calls of other clients are deleted. -/
theorem answersTo_eq_deleted (settings : Settings) (client : Client) (events : List Event) :
    ({ settings } : Limiter α).answersTo client events =
      ({ settings } : Limiter α).answersTo client (events.filter (·.concerns client)) :=
  Agree.answersTo ⟨rfl,rfl,rfl,rfl⟩ (distinct_fresh settings) (distinct_fresh settings) events

end SqlTidy.Limiter
