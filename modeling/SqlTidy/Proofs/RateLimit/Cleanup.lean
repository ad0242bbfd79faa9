import SqlTidy.Proofs.RateLimit.Level

/-! Cleaning up does not show. If a burst comes back between one cleanup and the next, a
bucket that is dropped was full, and a full bucket answers as no bucket does, now and as
long as its client stays away. So a limiter that drops buckets gives the answers of one
that keeps them all. -/
namespace SqlTidy
open Tokens

theorem whole_natCast (count : Nat) : whole (count : Rat) = count := by
  change Int.tdiv (count : Rat).num (count : Rat).den = count
  simp

namespace Bucket

theorem Sound.full_later {bucket : Bucket Rat} {now : Nat} (sound : bucket.Sound now) (ns : Nat)
    (full : bucket.level now = bucket.capacity) : bucket.level (now + ns) = bucket.capacity := by
  rw [sound.level_add ns,full]
  exact min_eq_left (le_add_of_nonneg_right (mul_nonneg (seconds_nonneg ns) sound.rate))

end Bucket

namespace Limiter

def answers (limiter : Limiter Rat) : List Event → List Answer
  | [] => []
  | event :: events => (limiter.answer? event).toList ++ (limiter.step event).answers events

/-- The left limiter has the buckets of the right one, but for some that are full. -/
structure Forgets (left right : Limiter Rat) : Prop where
  settings : left.settings = right.settings
  now : left.now = right.now
  stopped : left.stopped = right.stopped
  bucket : ∀ client, left.bucket? client = right.bucket? client ∨
    left.bucket? client = none ∧ right.level client = right.settings.burst

theorem forgets_self (limiter : Limiter Rat) : Forgets limiter limiter := ⟨rfl,rfl,rfl,fun _ => .inl rfl⟩

namespace Forgets

variable {left right : Limiter Rat}

theorem level (forgets : Forgets left right) (client : Client) : left.level client = right.level client := by
  rcases forgets.bucket client with same | ⟨absent,full⟩
  · exact Agree.level ⟨forgets.settings,forgets.now,forgets.stopped,same⟩
  · rw [level_of_none _ _ absent,full,forgets.settings]

theorem allow (forgets : Forgets left right) (leftSound : left.Sound) (rightSound : right.Sound) (client : Client) :
    (left.bucketOf client).allow left.now = (right.bucketOf client).allow right.now := by
  obtain ⟨_,leftCapacity,leftRate⟩ := leftSound.bucketOf client
  obtain ⟨_,rightCapacity,rightRate⟩ := rightSound.bucketOf client
  rw [forgets.settings] at leftCapacity leftRate
  have level := forgets.level client
  simp only [Limiter.level,forgets.now] at level
  rw [forgets.now]
  exact Bucket.allow_congr _ _ _ (leftCapacity.trans rightCapacity.symm) (leftRate.trans rightRate.symm) level

theorem standing (forgets : Forgets left right) (client : Client) : left.standing client = right.standing client := by
  rcases forgets.bucket client with same | ⟨absent,full⟩
  · simp only [Limiter.standing,same,forgets.settings,forgets.now]
  · cases held : right.bucket? client with
    | none => simp only [Limiter.standing,absent,held,forgets.settings]
    | some bucket =>
      rw [level_of_some _ _ _ held] at full
      simp only [Limiter.standing,absent,held,forgets.settings,Bucket.remaining,full,whole_natCast]

theorem answer (forgets : Forgets left right) (leftSound : left.Sound) (rightSound : right.Sound) (event : Event) :
    left.answer? event = right.answer? event := by
  cases event with
  | allow client => simp only [answer?,Limiter.allow,forgets.allow leftSound rightSound client]
  | standing client => simp only [answer?,forgets.standing client]
  | _ => rfl

theorem step (forgets : Forgets left right) (leftSound : left.Sound) (rightSound : right.Sound) (event : Event)
    (quiet : event ≠ .tick) : Forgets (left.step event) (right.step event) where
  settings := by simp only [step_settings,forgets.settings]
  now := by simp only [step_now,forgets.now]
  stopped := by simp only [step_stopped,forgets.stopped]
  bucket := by
    intro client
    have before := forgets.bucket client
    rw [bucket?_step left leftSound.distinct,bucket?_step right rightSound.distinct]
    cases event with
    | tick => exact absurd rfl quiet
    | allow caller =>
      by_cases own : client = caller
      · left
        simp only [if_pos own,forgets.allow leftSound rightSound client]
      · have unseen : Agree client (right.step (.allow caller)) right :=
          Agree.step_other ⟨rfl,rfl,rfl,rfl⟩ rightSound.distinct _
            (by simpa [Event.concerns,Event.client?] using Ne.symm own)
        simp only [if_neg own,unseen.level,step_settings]
        exact before
    | advance ns =>
      rcases before with alike | ⟨absent,full⟩
      · exact .inl alike
      · refine .inr ⟨absent,?_⟩
        have same := bucket?_step right rightSound.distinct (.advance ns) client
        cases held : right.bucket? client with
        | none => exact level_of_none _ _ (same.trans held)
        | some bucket =>
          obtain ⟨sound,capacity,_⟩ := rightSound.buckets client bucket held
          rw [level_of_some _ _ _ held,← capacity] at full
          rw [level_of_some _ _ _ (same.trans held),step_settings,← capacity]
          exact sound.full_later ns full
    | standing caller => exact before
    | stop => exact before

/-- What a tick takes from the left limiter is full in the right one. -/
theorem tick (forgets : Forgets left right) (leftSound : left.Sound) (refills : left.settings.Refills) :
    Forgets (left.step .tick) right where
  settings := by rw [step_settings,forgets.settings]
  now := by rw [step_now,forgets.now]; rfl
  stopped := by rw [step_stopped,forgets.stopped]; simp
  bucket := by
    intro client
    rw [← forgets.level client,← forgets.settings]
    cases running : left.stopped with
    | true =>
      simp only [Limiter.step,running,if_true,forgets.level,forgets.settings]
      exact forgets.bucket client
    | false =>
      cases held : left.bucket? client with
      | none =>
        right
        refine ⟨?_,level_of_none _ _ held⟩
        rw [bucket?_step left leftSound.distinct,held]
        simp
      | some bucket =>
        obtain ⟨sound,capacity,rate⟩ := leftSound.buckets client bucket held
        cases idle : bucket.isIdle left.settings.interval left.now with
        | true =>
          right
          refine ⟨tick_drops left leftSound.distinct running client bucket held idle,?_⟩
          rw [level_of_some _ _ _ held,← capacity]
          exact sound.level_idle left.settings.interval idle (by rw [capacity,rate]; exact refills.burst_le)
        | false =>
          left
          rw [tick_keeps left leftSound.distinct client bucket held idle]
          rcases forgets.bucket client with same | ⟨absent,_⟩
          · exact held.symm.trans same
          · simp [held] at absent

theorem answers (forgets : Forgets left right) (leftSound : left.Sound) (rightSound : right.Sound)
    (refills : left.settings.Refills) (events : List Event) :
    left.answers events = right.answers (events.filter (· != .tick)) := by
  -- At a tick the right limiter stands still.
  induction events generalizing left right with
  | nil => rfl
  | cons event events ih =>
    by_cases tick : event = .tick
    · subst event
      have rest := ih (forgets.tick leftSound refills) (leftSound.step .tick) rightSound (by simpa using refills)
      simpa [Limiter.answers,answer?] using rest
    · have rest := ih (forgets.step leftSound rightSound event tick) (leftSound.step event) (rightSound.step event)
        (by simpa using refills)
      rw [List.filter_cons_of_pos (by simpa using tick)]
      simp only [Limiter.answers,forgets.answer leftSound rightSound event,rest]

end Forgets

theorem Settings.Refills.rate_nonneg {settings : Settings} (refills : settings.Refills) (some : 1 ≤ settings.burst) :
    0 ≤ settings.rate := by
  have burst : (1 : Rat) ≤ settings.burst := by exact_mod_cast some
  by_contra negative
  have lost := mul_nonpos_of_nonneg_of_nonpos (seconds_nonneg settings.interval) (not_le.mp negative).le
  linarith [refills.burst_le]

/-- If a whole burst comes back between one cleanup and the next, every answer in every run
is the one it is in the run without its ticks. -/
theorem answers_eq_without_ticks (settings : Settings) (refills : settings.Refills) (some : 1 ≤ settings.burst)
    (events : List Event) :
    ({ settings } : Limiter Rat).answers events =
      ({ settings } : Limiter Rat).answers (events.filter (· != .tick)) := by
  have sound : Sound { settings } := sound_fresh settings (refills.rate_nonneg some)
  exact (forgets_self _).answers sound sound refills events

/-- With one request a second and a cleanup each second, the tick drops the bucket of the
first client and shows in no answer. -/
theorem answers_eq_without_ticks_second :
    let settings := Settings.clamped 60 1 1000000000
    let events : List Event := [.allow (utf8 "a"),.advance 1000000000,.tick,.standing (utf8 "a"),.allow (utf8 "a"),.stop]
    (settings.Refills ∧ 1 ≤ settings.burst) ∧
      (({ settings } : Limiter Rat).after (events.take 3)).buckets.length = 0 ∧
      ({ settings } : Limiter Rat).answers events =
        ({ settings } : Limiter Rat).answers (events.filter (· != .tick)) := by
  intro settings events
  have refills : settings.Refills := by
    change ((1 : Nat) : Rat) ≤ ((60 : Int) : Rat) * (((1000000000 : Nat) : Rat) / 1000000000) / 60
    norm_num
  have some : 1 ≤ settings.burst := by decide
  exact ⟨⟨refills,some⟩,by decide +kernel,answers_eq_without_ticks settings refills some events⟩

end Limiter
end SqlTidy
