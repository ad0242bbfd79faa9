import SqlTidy.Proofs.RateLimit.Level

/-! The rate guarantee: in a window of so many seconds a client is let through at most a
burst and what the rate yields meanwhile. What a client may still get in a window is an
allowance that no event raises, provided that a bucket which is dropped has filled up
before; a cleanup interval too short for that breaks the guarantee. -/
namespace SqlTidy.Limiter
open Tokens

def grants (limiter : Limiter Rat) (client : Client) (event : Event) : Bool :=
  event == .allow client && (limiter.allow client).1

def grantTimes (limiter : Limiter Rat) (client : Client) (events : List Event) : List Nat :=
  timesCounted step (fun limiter event => limiter.grants client event) (fun limiter _ => limiter.now) limiter events

theorem grantTimes_cons (limiter : Limiter Rat) (client : Client) (event : Event) (events : List Event) :
    limiter.grantTimes client (event :: events) =
      if limiter.grants client event then limiter.now :: (limiter.step event).grantTimes client events
      else (limiter.step event).grantTimes client events := rfl

theorem grantTimes_append (limiter : Limiter Rat) (client : Client) (first second : List Event) :
    limiter.grantTimes client (first ++ second) =
      limiter.grantTimes client first ++ (limiter.after first).grantTimes client second :=
  timesCounted_append ..

/-- How many of some times lie in the window of `length` seconds from `start` on, both ends
included. -/
def within (start length : Rat) (times : List Nat) : Nat :=
  times.countP fun time => decide (start ≤ seconds time ∧ seconds time ≤ start + length)

theorem level_step (limiter : Limiter Rat) (sound : limiter.Sound) (client : Client) (event : Event)
    (refills : limiter.settings.Refills) :
    (limiter.step event).level client + (if limiter.grants client event then 1 else 0) ≤
      limiter.level client + seconds event.elapsed * limiter.settings.rate := by
  cases event with
  | allow caller =>
    by_cases own : caller = client
    · subst caller
      rw [level_allow limiter sound.distinct]
      simp [grants,Event.elapsed]
    · have unseen : Agree client (limiter.step (.allow caller)) limiter :=
        Agree.step_other ⟨rfl,rfl,rfl,rfl⟩ sound.distinct (.allow caller) (by simp [Event.concerns,Event.client?,own])
      rw [unseen.level]
      simp [grants,Event.elapsed,own]
  | advance ns => simpa [grants,Event.elapsed] using level_advance limiter sound client ns
  | tick =>
    rw [level_tick limiter sound client refills]
    simp [grants,Event.elapsed]
  | standing caller => simp [grants,Event.elapsed,step]
  | stop =>
    have same : (limiter.step .stop).level client = limiter.level client := rfl
    simp [grants,Event.elapsed,same]

/-- What a client can still be granted in a window: a burst and the yield of the whole
window if that lies ahead, its level and the yield of the rest if it has begun. -/
def allowance (limiter : Limiter Rat) (client : Client) (start length : Rat) : Rat :=
  if seconds limiter.now < start then limiter.settings.burst + length * limiter.settings.rate
  else if seconds limiter.now ≤ start + length then
    limiter.level client + (start + length - seconds limiter.now) * limiter.settings.rate
  else 0

theorem Sound.allowance_nonneg {limiter : Limiter Rat} (sound : limiter.Sound) (client : Client)
    (start length : Rat) (forward : 0 ≤ length) : 0 ≤ limiter.allowance client start length := by
  have level := sound.level_nonneg client
  have burst := level.trans (sound.level_le client)
  unfold allowance
  split_ifs with ahead inside
  · linarith [mul_nonneg forward sound.rate]
  · linarith [mul_nonneg (sub_nonneg.mpr inside) sound.rate]
  · exact le_rfl

theorem Sound.allowance_le {limiter : Limiter Rat} (sound : limiter.Sound) (client : Client)
    (start length : Rat) (forward : 0 ≤ length) :
    limiter.allowance client start length ≤ limiter.settings.burst + length * limiter.settings.rate := by
  have level := sound.level_nonneg client
  have bound := sound.level_le client
  unfold allowance
  split_ifs with ahead inside
  · exact le_rfl
  · have rest : start + length - seconds limiter.now ≤ length := by linarith
    linarith [mul_le_mul_of_nonneg_right rest sound.rate]
  · linarith [mul_nonneg forward sound.rate]

theorem grants_elapsed (limiter : Limiter Rat) (client : Client) (event : Event)
    (granted : limiter.grants client event = true) : event.elapsed = 0 := by
  simp only [grants,Bool.and_eq_true,beq_iff_eq] at granted
  rw [granted.1]
  rfl

theorem allowance_inside (limiter : Limiter Rat) (client : Client) (start length : Rat)
    (begun : start ≤ seconds limiter.now) (inside : seconds limiter.now ≤ start + length) :
    limiter.allowance client start length =
      limiter.level client + (start + length - seconds limiter.now) * limiter.settings.rate := by
  rw [allowance,if_neg (not_lt.mpr begun),if_pos inside]

theorem allowance_over (limiter : Limiter Rat) (client : Client) (start length : Rat)
    (begun : start ≤ seconds limiter.now) (beyond : start + length < seconds limiter.now) :
    limiter.allowance client start length = 0 := by
  rw [allowance,if_neg (not_lt.mpr begun),if_neg (not_le.mpr beyond)]

/-- Inside the window the yield of the time that passes is taken from the yield of the rest. -/
theorem allowance_step_inside (limiter : Limiter Rat) (sound : limiter.Sound) (client : Client) (event : Event)
    (refills : limiter.settings.Refills)
    (start length : Rat) (forward : 0 ≤ length)
    (begun : start ≤ seconds limiter.now) (inside : seconds limiter.now ≤ start + length) :
    (limiter.step event).allowance client start length + (if limiter.grants client event then 1 else 0) ≤
      limiter.allowance client start length := by
  have later : (seconds (limiter.step event).now : Rat) = seconds limiter.now + seconds event.elapsed := by
    rw [step_now,seconds_add]
  have stillBegun : start ≤ seconds (limiter.step event).now := by linarith [seconds_nonneg event.elapsed]
  by_cases still : seconds (limiter.step event).now ≤ start + length
  · have paid := level_step limiter sound client event refills
    have spent : (start + length - seconds (limiter.step event).now) * limiter.settings.rate =
        (start + length - seconds limiter.now) * limiter.settings.rate -
          seconds event.elapsed * limiter.settings.rate := by
      rw [later]
      ring
    rw [allowance_inside _ _ _ _ begun inside,allowance_inside _ _ _ _ stillBegun still,step_settings]
    linarith
  · -- Time has passed, so that the event was no grant.
    have refused : limiter.grants client event = false := by
      cases granted : limiter.grants client event with
      | false => rfl
      | true =>
        rw [step_now,grants_elapsed limiter client event granted,Nat.add_zero] at still
        exact absurd inside still
    rw [allowance_over _ _ _ _ stillBegun (not_le.mp still),refused]
    simpa using sound.allowance_nonneg client start length forward

theorem allowance_step (limiter : Limiter Rat) (sound : limiter.Sound) (client : Client) (event : Event)
    (refills : limiter.settings.Refills)
    (start length : Rat) (forward : 0 ≤ length) :
    (limiter.step event).allowance client start length +
        (if limiter.grants client event ∧ start ≤ seconds limiter.now ∧ seconds limiter.now ≤ start + length
          then 1 else 0) ≤
      limiter.allowance client start length := by
  by_cases begun : start ≤ seconds limiter.now
  · by_cases inside : seconds limiter.now ≤ start + length
    · simp only [begun,inside,and_true]
      exact allowance_step_inside limiter sound client event refills start length forward begun inside
    · have passed : (seconds limiter.now : Rat) ≤ seconds (limiter.step event).now := by
        rw [step_now]
        exact seconds_le _ _ (Nat.le_add_right _ _)
      have beyond := not_le.mp inside
      rw [allowance_over _ _ _ _ begun beyond,allowance_over _ _ _ _ (begun.trans passed) (beyond.trans_le passed)]
      simp [inside]
  · have whole := (sound.step event).allowance_le client start length forward
    simpa [allowance,begun,not_le.mp begun] using whole

theorem within_le_allowance (limiter : Limiter Rat) (sound : limiter.Sound) (client : Client)
    (refills : limiter.settings.Refills)
    (start length : Rat) (forward : 0 ≤ length) (events : List Event) :
    (within start length (limiter.grantTimes client events) : Rat) ≤ limiter.allowance client start length := by
  induction events generalizing limiter with
  | nil => simpa [grantTimes,timesCounted,within] using sound.allowance_nonneg client start length forward
  | cons event events ih =>
    have rest := ih (limiter.step event) (sound.step event) (by simpa using refills)
    have paid := allowance_step limiter sound client event refills start length forward
    have counted : (within start length (limiter.grantTimes client (event :: events)) : Rat) =
        within start length ((limiter.step event).grantTimes client events) +
          if limiter.grants client event ∧ start ≤ seconds limiter.now ∧ seconds limiter.now ≤ start + length
            then 1 else 0 := by
      rw [within,grantTimes,countP_timesCounted]
      push_cast
      simp only [Bool.and_eq_true,decide_eq_true_eq]
      rfl
    linarith

theorem grantTimes_allows (limiter : Limiter Rat) (distinct : limiter.Distinct) (client : Client) (count : Nat)
    (enough : (count : Rat) ≤ limiter.level client) :
    limiter.grantTimes client (List.replicate count (.allow client)) = List.replicate count limiter.now := by
  induction count generalizing limiter with
  | zero => rfl
  | succ count ih =>
    push_cast at enough
    have granted : (limiter.allow client).1 = true := by
      change ((limiter.bucketOf client).allow limiter.now).1 = true
      rw [Bucket.allow_eq]
      have covered : 1 ≤ limiter.level client := by linarith [(Nat.cast_nonneg count : (0 : Rat) ≤ count)]
      simpa [level] using covered
    have left : (count : Rat) ≤ (limiter.step (.allow client)).level client := by
      rw [level_allow limiter distinct,granted,if_pos rfl]
      linarith
    have rest := ih (limiter.step (.allow client)) (distinct_step limiter distinct _) left
    rw [step_now] at rest
    simp [List.replicate_succ,grantTimes_cons,grants,granted,rest,Event.elapsed]

theorem after_allows (limiter : Limiter Rat) (client : Client) (count : Nat) :
    (limiter.after (List.replicate count (.allow client))).now = limiter.now ∧
      (limiter.after (List.replicate count (.allow client))).stopped = limiter.stopped ∧
      (limiter.after (List.replicate count (.allow client))).settings = limiter.settings := by
  induction count generalizing limiter with
  | zero => exact ⟨rfl,rfl,rfl⟩
  | succ count ih => exact ih (limiter.step (.allow client))

theorem touched_after_allows (limiter : Limiter Rat) (distinct : limiter.Distinct) (client : Client) (count : Nat) :
    ∃ bucket, (limiter.after (List.replicate (count + 1) (.allow client))).bucket? client = some bucket ∧
      bucket.touched = limiter.now := by
  have before := after_allows limiter client count
  have held := bucket?_step _ (distinct_after limiter distinct (List.replicate count (.allow client)))
    (.allow client) client
  simp only [if_true] at held
  rw [List.replicate_succ',after,List.foldl_append]
  refine ⟨_,held,?_⟩
  rw [Bucket.allow_eq]
  exact before.1

/-- A burst, a cleanup one interval later, and another burst. -/
def drainTwice (settings : Settings) (client : Client) : List Event :=
  List.replicate settings.burst (.allow client) ++
    (.advance settings.interval :: .tick :: List.replicate settings.burst (.allow client))

/-- A client that asks and then waits an interval loses its bucket at the tick, full or not. -/
theorem bucket?_after_interval (limiter : Limiter Rat) (distinct : limiter.Distinct)
    (running : limiter.stopped = false) (client : Client) (count : Nat) (some : 0 < count) :
    let waited := (limiter.after (List.replicate count (.allow client))).step (.advance limiter.settings.interval)
    (waited.step .tick).bucket? client = none := by
  intro waited
  have drainedDistinct := distinct_after limiter distinct (List.replicate count (.allow client))
  obtain ⟨now,stopped,same⟩ := after_allows limiter client count
  obtain ⟨before,rfl⟩ := Nat.exists_eq_succ_of_ne_zero some.ne'
  obtain ⟨bucket,held,touched⟩ := touched_after_allows limiter distinct client before
  have kept : waited.bucket? client = .some bucket := (bucket?_step _ drainedDistinct _ client).trans held
  refine tick_drops waited (distinct_step _ drainedDistinct _) (stopped.trans running) client bucket kept ?_
  rw [step_now,now,step_settings,same]
  simp [Bucket.isIdle,Event.elapsed,touched]

/-- Two bursts an interval apart are granted in full, however slow the rate. -/
theorem grantTimes_drainTwice (settings : Settings) (client : Client) :
    ({ settings } : Limiter Rat).grantTimes client (drainTwice settings client) =
      List.replicate settings.burst 0 ++ List.replicate settings.burst settings.interval := by
  let fresh : Limiter Rat := { settings }
  let drained := fresh.after (List.replicate settings.burst (.allow client))
  let ticked := (drained.step (.advance settings.interval)).step .tick
  have distinct : fresh.Distinct := distinct_fresh settings
  have tickedDistinct : ticked.Distinct := distinct_step _ (distinct_step drained (distinct_after fresh distinct _) _) _
  obtain ⟨now,_,same⟩ := after_allows fresh client settings.burst
  have tickedNow : ticked.now = settings.interval := by
    rw [step_now,step_now,now]
    exact Nat.zero_add _
  have tickedSettings : ticked.settings = settings := by rw [step_settings,step_settings,same]
  have dropped : ticked.bucket? client = none := bucket?_after_interval fresh distinct rfl client settings.burst settings.burst_pos
  have first := grantTimes_allows fresh distinct client settings.burst (level_of_none fresh client rfl).ge
  have second := grantTimes_allows ticked tickedDistinct client settings.burst
    (by rw [level_of_none _ _ dropped,tickedSettings])
  rw [tickedNow] at second
  rw [drainTwice,grantTimes_append,first]
  exact congrArg (List.replicate settings.burst 0 ++ ·) second

theorem within_drainTwice (settings : Settings) (client : Client) :
    within 0 (seconds settings.interval)
      (({ settings } : Limiter Rat).grantTimes client (drainTwice settings client)) =
        settings.burst + settings.burst := by
  have early : (seconds 0 : Rat) ≤ 0 + seconds settings.interval := by simp [seconds_nonneg]
  have late : (seconds settings.interval : Rat) ≤ 0 + seconds settings.interval := (zero_add _).ge
  rw [grantTimes_drainTwice settings]
  simp only [within,List.countP_append,List.countP_replicate,seconds_nonneg,early,late,and_self,decide_true,if_true]

/-- In no run and no window is a client let through more often than a burst and what the
rate yields meanwhile. -/
def Settings.KeepsRate (settings : Settings) : Prop :=
  ∀ (client : Client) (events : List Event) (start length : Rat), 0 ≤ length →
    (within start length (({ settings } : Limiter Rat).grantTimes client events) : Rat) ≤
      settings.burst + settings.requestsPerMinute * length / 60

/-- The guarantee holds exactly if an interval between cleanups is long enough to refill a
whole burst. -/
theorem keepsRate_iff_refills (requestsPerMinute : Nat) (burst interval : Int) :
    (Settings.clamped requestsPerMinute burst interval).KeepsRate ↔
      (Settings.clamped requestsPerMinute burst interval).Refills := by
  have steady : 0 ≤ (Settings.clamped requestsPerMinute burst interval).rate := by
    rw [Settings.rate_eq]
    simp only [Settings.clamped]
    positivity
  generalize Settings.clamped requestsPerMinute burst interval = settings at steady ⊢
  constructor
  · intro bounded
    have twice := bounded [] (drainTwice settings []) 0 (seconds settings.interval) (seconds_nonneg _)
    rw [within_drainTwice settings] at twice
    push_cast at twice
    change _ ≤ _ + (settings.requestsPerMinute : Rat) * (settings.interval / 1000000000) / 60 at twice
    unfold Settings.Refills
    linarith
  · intro refills client events start length forward
    have sound : Sound { settings } := sound_fresh settings steady
    have bound := (within_le_allowance _ sound client refills start length forward events).trans
      (sound.allowance_le client start length forward)
    rw [Settings.rate_eq] at bound
    linarith

/-- With one request a minute, a burst of one and a cleanup each second, a client is let
through twice within a second. -/
theorem not_keepsRate_short_interval : ¬(Settings.clamped 1 1 1000000000).KeepsRate := by
  intro bounded
  have twice := bounded (utf8 "a") [.allow (utf8 "a"),.advance 1000000000,.tick,.allow (utf8 "a")] 0 1 (by decide)
  revert twice
  decide +kernel

end SqlTidy.Limiter
