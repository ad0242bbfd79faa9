import SqlTidy.Proofs.RateLimit.Level
import Mathlib.Tactic.FieldSimp

/-! Waiting pays. A bucket that is held was touched when its client last asked, and a bucket
that was dropped comes back full. Since tokens never fall below nothing, a client that has
let the time of one request pass finds a token, whatever it and others did before. -/
namespace SqlTidy.Limiter
open Tokens

section Asking

variable {α : Type} [Tokens α]

/-- The times at which a client asks to be let through, whatever it is told. -/
def askTimes (limiter : Limiter α) (client : Client) (events : List Event) : List Nat :=
  timesCounted step (fun _ event => event == .allow client) (fun limiter _ => limiter.now) limiter events

theorem askTimes_cons (limiter : Limiter α) (client : Client) (event : Event) (events : List Event) :
    limiter.askTimes client (event :: events) =
      if event = .allow client then limiter.now :: (limiter.step event).askTimes client events
      else (limiter.step event).askTimes client events := by
  simp only [askTimes,timesCounted,beq_iff_eq]

theorem askTimes_append (limiter : Limiter α) (client : Client) (first second : List Event) :
    limiter.askTimes client (first ++ second) =
      limiter.askTimes client first ++ (limiter.after first).askTimes client second :=
  timesCounted_append ..

theorem askTimes_absent (limiter : Limiter α) (client : Client) (events : List Event)
    (absent : .allow client ∉ events) : limiter.askTimes client events = [] := by
  refine timesCounted_eq_nil _ _ _ _ fun _ event member => ?_
  rw [beq_eq_false_iff_ne]
  rintro rfl
  exact absent member

theorem touched_eq_last (settings : Settings) (client : Client) (events : List Event) (bucket : Bucket α)
    (held : (({ settings } : Limiter α).after events).bucket? client = some bucket) :
    (({ settings } : Limiter α).askTimes client events).getLast? = some bucket.touched := by
  -- Only the last event can have touched the bucket after the events before it.
  induction events using List.reverseRecOn generalizing bucket with
  | nil => simp [after,bucket?] at held
  | append_singleton events event ih =>
    have distinct := distinct_after ({ settings } : Limiter α) (distinct_fresh settings) events
    rw [after_append] at held
    change ((({ settings } : Limiter α).after events).step event).bucket? client = some bucket at held
    rw [bucket?_step _ distinct] at held
    rw [askTimes_append]
    by_cases asks : event = .allow client
    · subst event
      simp only [if_true,Option.some.injEq] at held
      rw [← held,Bucket.allow_touched]
      simp [askTimes,timesCounted]
    · have silent : (({ settings } : Limiter α).after events).askTimes client [event] = [] := by
        simp [askTimes,timesCounted,asks]
      rw [silent,List.append_nil]
      apply ih
      cases event with
      | allow other =>
        have foreign : client ≠ other := fun same => asks (by rw [same])
        simpa [foreign] using held
      | tick =>
        simp only at held
        split at held
        next => exact held
        next => exact (Option.filter_eq_some_iff.mp held).1
      | advance ns => exact held
      | standing other => exact held
      | stop => exact held

end Asking

theorem allow_eq (limiter : Limiter Rat) (client : Client) :
    (limiter.allow client).1 = decide (1 ≤ limiter.level client) := by
  change ((limiter.bucketOf client).allow limiter.now).1 = _
  rw [Bucket.allow_eq]
  rfl

/-- A bucket that was left alone for the time of one request holds a token. -/
theorem Sound.level_rested {limiter : Limiter Rat} (sound : limiter.Sound) (client : Client)
    (rested : ∀ bucket, limiter.bucket? client = some bucket →
      1 ≤ seconds (limiter.now - bucket.touched) * limiter.settings.rate) : 1 ≤ limiter.level client := by
  have whole : (1 : Rat) ≤ limiter.settings.burst := Nat.one_le_cast.mpr limiter.settings.burst_pos
  cases held : limiter.bucket? client with
  | none =>
    rw [level_of_none limiter client held]
    exact whole
  | some bucket =>
    obtain ⟨steady,capacity,rate⟩ := sound.buckets client bucket held
    have refill := rested bucket held
    rw [level_of_some limiter client bucket held,Bucket.level_eq,capacity,rate]
    apply le_min whole
    linarith [steady.tokens]

/-- The seconds in which the rate yields one request. -/
def Settings.period (settings : Settings) : Rat := 60 / settings.requestsPerMinute

theorem Settings.rate_nonneg (settings : Settings) (steady : 0 ≤ settings.requestsPerMinute) : 0 ≤ settings.rate := by
  have nonneg : (0 : Rat) ≤ settings.requestsPerMinute := by exact_mod_cast steady
  rw [rate_eq]
  positivity

theorem Settings.period_mul_rate (settings : Settings) (limited : 0 < settings.requestsPerMinute) :
    settings.period * settings.rate = 1 := by
  have positive : (settings.requestsPerMinute : Rat) ≠ 0 := by exact_mod_cast limited.ne'
  rw [period,rate_eq]
  field_simp

theorem Settings.period_le (settings : Settings) (limited : 0 < settings.requestsPerMinute) : settings.period ≤ 60 := by
  have least : (1 : Rat) ≤ settings.requestsPerMinute := by exact_mod_cast limited
  exact div_le_self (by norm_num) least

/-- In every run a client that last asked a period ago, or never, is let through. -/
theorem allow_rested (settings : Settings) (limited : 0 < settings.requestsPerMinute)
    (events : List Event) (client : Client)
    (rested : ∀ time ∈ (({ settings } : Limiter Rat).askTimes client events).getLast?,
      settings.period ≤ seconds ((({ settings } : Limiter Rat).after events).now - time)) :
    ((({ settings } : Limiter Rat).after events).allow client).1 = true := by
  have steady := settings.rate_nonneg limited.le
  have sound := (sound_fresh settings steady).after events
  have same : (({ settings } : Limiter Rat).after events).settings = settings := after_settings _ events
  rw [allow_eq,decide_eq_true_eq]
  refine sound.level_rested client fun bucket held => ?_
  have waited := rested bucket.touched (touched_eq_last settings client events bucket held)
  rw [same,← settings.period_mul_rate limited]
  exact mul_le_mul_of_nonneg_right waited steady

/-- The same for a client that has asked and then let a period pass. -/
theorem allow_after_pause (settings : Settings) (limited : 0 < settings.requestsPerMinute)
    (before since : List Event) (client : Client) (quiet : .allow client ∉ since)
    (waited : settings.period ≤ seconds ((({ settings } : Limiter Rat).after (before ++ .allow client :: since)).now -
      (({ settings } : Limiter Rat).after before).now)) :
    ((({ settings } : Limiter Rat).after (before ++ .allow client :: since)).allow client).1 = true := by
  apply allow_rested settings limited
  intro time member
  rw [askTimes_append,askTimes_cons,if_pos rfl,askTimes_absent _ _ _ quiet,List.getLast?_concat] at member
  obtain rfl := Option.some.inj member
  exact waited

end SqlTidy.Limiter
