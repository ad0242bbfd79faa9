import SqlTidy.Proofs.RateLimit.Isolation
import Mathlib.Algebra.Order.Field.Rat
import Mathlib.Tactic.Linarith
import Mathlib.Tactic.Positivity
import Mathlib.Tactic.Ring

/-! Levels in exact arithmetic: what a bucket holds, and what a client of a limiter could
take. A request that is let through lowers the level by one, a refused one leaves it,
time raises it by no more than the rate allows, and a cleanup that drops only buckets
which have filled up does not show. -/
namespace SqlTidy
open Tokens

theorem seconds_add (first second : Nat) :
    (seconds (first + second) : Rat) = seconds first + seconds second := by
  change ((first + second : Nat) : Rat) / 1000000000 = first / 1000000000 + second / 1000000000
  push_cast
  ring

@[simp] theorem seconds_zero : (seconds 0 : Rat) = 0 := by simp [seconds]

theorem seconds_nonneg (ns : Nat) : (0 : Rat) ≤ seconds ns := by
  change (0 : Rat) ≤ (ns : Rat) / 1000000000
  positivity

theorem seconds_le (first second : Nat) (ordered : first ≤ second) :
    (seconds first : Rat) ≤ seconds second := by
  obtain ⟨gap,rfl⟩ := Nat.exists_eq_add_of_le ordered
  rw [seconds_add]
  linarith [seconds_nonneg gap]

namespace Bucket

structure Sound (bucket : Bucket Rat) (now : Nat) : Prop where
  rate : 0 ≤ bucket.rate
  tokens : 0 ≤ bucket.tokens
  capacity : bucket.tokens ≤ bucket.capacity
  touched : bucket.touched ≤ now

theorem level_eq (bucket : Bucket Rat) (now : Nat) :
    bucket.level now = min bucket.capacity (bucket.tokens + seconds (now - bucket.touched) * bucket.rate) := by
  rw [min_def]
  simp only [level,least,le,decide_eq_true_eq]
  rfl

theorem level_le_capacity (bucket : Bucket Rat) (now : Nat) : bucket.level now ≤ bucket.capacity := by
  rw [level_eq]
  exact min_le_left _ _

theorem level_touched (bucket : Bucket Rat) (fits : bucket.tokens ≤ bucket.capacity) :
    bucket.level bucket.touched = bucket.tokens := by
  rw [level_eq,Nat.sub_self,seconds_zero,zero_mul,add_zero]
  exact min_eq_right fits

theorem level_full (capacity rate : Rat) (now : Nat) : (full capacity rate now).level now = capacity :=
  level_touched (full capacity rate now) le_rfl

theorem allow_eq (bucket : Bucket Rat) (now : Nat) :
    bucket.allow now = (decide (1 ≤ bucket.level now),
      { bucket with
        tokens := bucket.level now - if 1 ≤ bucket.level now then 1 else 0
        touched := now }) := by
  by_cases enough : 1 ≤ bucket.level now
  · simp [allow,le,one,sub,enough]
  · simp [allow,le,one,enough]

theorem level_allow (bucket : Bucket Rat) (now : Nat) :
    (bucket.allow now).2.level now = bucket.level now - if (bucket.allow now).1 then 1 else 0 := by
  rw [allow_eq]
  simp only [decide_eq_true_eq]
  apply level_touched
  have bound := bucket.level_le_capacity now
  split <;> simp only <;> linarith

theorem allow_congr (left right : Bucket Rat) (now : Nat) (capacity : left.capacity = right.capacity)
    (rate : left.rate = right.rate) (level : left.level now = right.level now) :
    left.allow now = right.allow now := by
  rw [allow_eq,allow_eq,capacity,rate,level]

namespace Sound

variable {bucket : Bucket Rat} {now : Nat}

theorem level_nonneg (sound : bucket.Sound now) : 0 ≤ bucket.level now := by
  rw [level_eq]
  have refill := mul_nonneg (seconds_nonneg (now - bucket.touched)) sound.rate
  apply le_min
  · exact sound.tokens.trans sound.capacity
  · linarith [sound.tokens]

theorem later (sound : bucket.Sound now) (ns : Nat) : bucket.Sound (now + ns) :=
  { sound with touched := sound.touched.trans (Nat.le_add_right now ns) }

theorem allow (sound : bucket.Sound now) : (bucket.allow now).2.Sound now := by
  have least := sound.level_nonneg
  have most := bucket.level_le_capacity now
  rw [allow_eq]
  refine ⟨sound.rate,?_,?_,le_rfl⟩ <;> simp only <;> split <;> linarith

/-- Refills add up: looking at a bucket in between does not change what it comes to hold. -/
theorem level_add (sound : bucket.Sound now) (ns : Nat) :
    bucket.level (now + ns) = min bucket.capacity (bucket.level now + seconds ns * bucket.rate) := by
  have gain := mul_nonneg (seconds_nonneg ns) sound.rate
  have split : now + ns - bucket.touched = (now - bucket.touched) + ns := by
    have past := sound.touched
    omega
  rw [level_eq,level_eq,split,seconds_add,add_mul,← add_assoc,← min_add_add_right,← min_assoc]
  rw [min_eq_left (le_add_of_nonneg_right gain)]

theorem level_later (sound : bucket.Sound now) (ns : Nat) :
    bucket.level (now + ns) ≤ bucket.level now + seconds ns * bucket.rate :=
  (sound.level_add ns).trans_le (min_le_right _ _)

theorem level_idle (sound : bucket.Sound now) (interval : Nat) (idle : bucket.isIdle interval now = true)
    (refills : bucket.capacity ≤ seconds interval * bucket.rate) : bucket.level now = bucket.capacity := by
  have waited : interval ≤ now - bucket.touched := by simpa [isIdle] using idle
  have longer := mul_le_mul_of_nonneg_right (seconds_le _ _ waited) sound.rate
  rw [level_eq]
  apply min_eq_left
  linarith [sound.tokens]

end Sound

theorem full_sound (capacity rate : Rat) (now : Nat) (room : 0 ≤ capacity) (steady : 0 ≤ rate) :
    (full capacity rate now).Sound now := ⟨steady,room,le_rfl,le_rfl⟩

end Bucket

namespace Limiter

/-- What a client could take now if it asked often enough, fractions included. -/
def level (limiter : Limiter Rat) (client : Client) : Rat := (limiter.bucketOf client).level limiter.now

def Settings.rate (settings : Settings) : Rat := perMinute settings.requestsPerMinute

/-- A whole burst comes back between one cleanup and the next. -/
def Settings.Refills (settings : Settings) : Prop :=
  (settings.burst : Rat) ≤ settings.requestsPerMinute * (settings.interval / 1000000000) / 60

theorem Settings.rate_eq (settings : Settings) : settings.rate = settings.requestsPerMinute / 60 := by
  simp [rate,perMinute]

theorem Settings.Refills.burst_le {settings : Settings} (refills : settings.Refills) :
    (settings.burst : Rat) ≤ seconds settings.interval * settings.rate := by
  have known : (settings.burst : Rat) ≤ settings.requestsPerMinute * (settings.interval / 1000000000) / 60 := refills
  rw [rate_eq]
  change _ ≤ (settings.interval : Rat) / 1000000000 * _
  linarith

/-- Buckets are those of their clients alone, in order, and made by the settings. -/
structure Sound (limiter : Limiter Rat) : Prop where
  distinct : limiter.Distinct
  rate : 0 ≤ limiter.settings.rate
  buckets : ∀ client bucket, limiter.bucket? client = some bucket →
    bucket.Sound limiter.now ∧ bucket.capacity = limiter.settings.burst ∧ bucket.rate = limiter.settings.rate

theorem sound_fresh (settings : Settings) (rate : 0 ≤ settings.rate) : Sound { settings } where
  distinct := distinct_fresh settings
  rate := rate
  buckets := by simp [bucket?]

namespace Sound

variable {limiter : Limiter Rat}

theorem bucketOf (sound : limiter.Sound) (client : Client) :
    (limiter.bucketOf client).Sound limiter.now ∧ (limiter.bucketOf client).capacity = limiter.settings.burst ∧
      (limiter.bucketOf client).rate = limiter.settings.rate := by
  cases held : limiter.bucket? client with
  | some bucket =>
    simp only [Limiter.bucketOf,held,Option.getD_some]
    exact sound.buckets client bucket held
  | none =>
    simp only [Limiter.bucketOf,held,Option.getD_none]
    refine ⟨Bucket.full_sound _ _ _ ?_ sound.rate,?_,rfl⟩
    · simp [ofInt]
    · simp [Bucket.full,ofInt]

theorem step (sound : limiter.Sound) (event : Event) : (limiter.step event).Sound where
  distinct := distinct_step limiter sound.distinct event
  rate := by simpa using sound.rate
  buckets := by
    intro client bucket held
    rw [step_settings,step_now]
    rw [bucket?_step limiter sound.distinct] at held
    cases event with
    | allow caller =>
      simp only at held
      split at held
      next same =>
        obtain rfl := Option.some.inj held
        obtain ⟨steady,capacity,rate⟩ := sound.bucketOf client
        refine ⟨steady.allow,?_,?_⟩
        · rw [Bucket.allow_eq]; exact capacity
        · rw [Bucket.allow_eq]; exact rate
      next => exact sound.buckets client bucket held
    | advance ns =>
      obtain ⟨steady,made⟩ := sound.buckets client bucket held
      exact ⟨steady.later ns,made⟩
    | tick =>
      simp only at held
      split at held
      next => exact sound.buckets client bucket held
      next => exact sound.buckets client bucket (Option.filter_eq_some_iff.mp held).1
    | standing caller => exact sound.buckets client bucket held
    | stop => exact sound.buckets client bucket held

theorem after (sound : limiter.Sound) (events : List Event) : (limiter.after events).Sound := by
  induction events generalizing limiter with
  | nil => exact sound
  | cons event events ih => exact ih (sound.step event)

theorem level_nonneg (sound : limiter.Sound) (client : Client) : 0 ≤ limiter.level client :=
  (sound.bucketOf client).1.level_nonneg

theorem level_le (sound : limiter.Sound) (client : Client) : limiter.level client ≤ limiter.settings.burst :=
  ((limiter.bucketOf client).level_le_capacity limiter.now).trans_eq (sound.bucketOf client).2.1

end Sound

theorem level_of_none (limiter : Limiter Rat) (client : Client) (absent : limiter.bucket? client = none) :
    limiter.level client = limiter.settings.burst := by
  simp only [level,bucketOf,absent,Option.getD_none,Bucket.level_full]
  simp [ofInt]

theorem level_of_some (limiter : Limiter Rat) (client : Client) (bucket : Bucket Rat)
    (held : limiter.bucket? client = some bucket) : limiter.level client = bucket.level limiter.now := by
  simp only [level,bucketOf,held,Option.getD_some]

theorem Agree.level {client : Client} {left right : Limiter Rat} (agree : Agree client left right) :
    left.level client = right.level client := by
  simp only [Limiter.level,agree.bucketOf,agree.now]

theorem level_allow (limiter : Limiter Rat) (distinct : limiter.Distinct) (client : Client) :
    (limiter.step (.allow client)).level client =
      limiter.level client - if (limiter.allow client).1 then 1 else 0 := by
  have held := bucket?_step limiter distinct (.allow client) client
  simp only [if_true] at held
  rw [level_of_some _ _ _ held]
  exact Bucket.level_allow (limiter.bucketOf client) limiter.now

theorem level_advance_eq (limiter : Limiter Rat) (sound : limiter.Sound) (client : Client) (ns : Nat) :
    (limiter.step (.advance ns)).level client =
      min (limiter.settings.burst : Rat) (limiter.level client + seconds ns * limiter.settings.rate) := by
  have same := bucket?_step limiter sound.distinct (.advance ns) client
  simp only at same
  cases held : limiter.bucket? client with
  | some bucket =>
    obtain ⟨steady,capacity,rate⟩ := sound.buckets client bucket held
    rw [level_of_some _ _ _ held,level_of_some _ _ _ (same.trans held),← rate,← capacity]
    exact steady.level_add ns
  | none =>
    rw [level_of_none _ _ held,level_of_none _ _ (same.trans held),step_settings]
    exact (min_eq_left (le_add_of_nonneg_right (mul_nonneg (seconds_nonneg ns) sound.rate))).symm

theorem level_advance (limiter : Limiter Rat) (sound : limiter.Sound) (client : Client) (ns : Nat) :
    (limiter.step (.advance ns)).level client ≤ limiter.level client + seconds ns * limiter.settings.rate :=
  (level_advance_eq limiter sound client ns).trans_le (min_le_right _ _)

theorem level_tick (limiter : Limiter Rat) (sound : limiter.Sound) (client : Client)
    (refills : limiter.settings.Refills) :
    (limiter.step .tick).level client = limiter.level client := by
  cases running : limiter.stopped with
  | true => simp only [step,running,if_true]
  | false =>
    cases held : limiter.bucket? client with
    | none =>
      have absent : (limiter.step .tick).bucket? client = none := by
        rw [bucket?_step limiter sound.distinct,held]
        simp
      rw [level_of_none _ _ held,level_of_none _ _ absent,step_settings]
    | some bucket =>
      obtain ⟨steady,capacity,rate⟩ := sound.buckets client bucket held
      cases idle : bucket.isIdle limiter.settings.interval limiter.now with
      | true =>
        have dropped := tick_drops limiter sound.distinct running client bucket held idle
        have full := steady.level_idle limiter.settings.interval idle (by rw [capacity,rate]; exact refills.burst_le)
        rw [level_of_some _ _ _ held,level_of_none _ _ dropped,step_settings,full,capacity]
      | false =>
        have kept := tick_keeps limiter sound.distinct client bucket held idle
        rw [level_of_some _ _ _ held,level_of_some _ _ _ kept,step_now]
        rfl

end Limiter
end SqlTidy
