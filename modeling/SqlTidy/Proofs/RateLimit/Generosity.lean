import SqlTidy.Proofs.RateLimit.Remainder

/-! A more generous limit pays. Of two limiters that see the same events the one with the
higher rate and the larger burst may have fewer tokens at times, because it has spent more.
What it has granted beyond the other makes up for that: tokens and lead together never fall
behind, so that the lead is never used up. -/
namespace SqlTidy.Limiter

/-- Settings that allow no more, with cleanups at the same times. -/
structure Settings.Stricter (strict lax : Settings) : Prop where
  rate : strict.rate ≤ lax.rate
  burst : strict.burst ≤ lax.burst
  interval : strict.interval = lax.interval

theorem level_of_tick (limiter : Limiter Rat) (distinct : limiter.Distinct) (client : Client) :
    (limiter.step .tick).level client =
      if (limiter.step .tick).touched? client = none then (limiter.settings.burst : Rat)
      else limiter.level client := by
  cases held : (limiter.step .tick).bucket? client with
  | none => simp [touched?,held,level_of_none _ _ held]
  | some bucket =>
    have before : limiter.bucket? client = some bucket := by
      rw [bucket?_step limiter distinct] at held
      simp only at held
      split at held
      next => exact held
      next => exact (Option.filter_eq_some_iff.mp held).1
    rw [level_of_some _ _ _ held,level_of_some _ _ _ before,step_now]
    simp [touched?,held,Event.elapsed]

/-- The lax limiter has granted a client `lead` requests more than the strict one, and with
these has had no fewer tokens for it. -/
structure Ahead (client : Client) (lead : Nat) (strict lax : Limiter Rat) : Prop where
  settings : strict.settings.Stricter lax.settings
  now : strict.now = lax.now
  stopped : strict.stopped = lax.stopped
  touched : strict.touched? client = lax.touched? client
  level : strict.level client ≤ lax.level client + lead

namespace Ahead

variable {client : Client} {lead : Nat} {strict lax : Limiter Rat}

theorem touched_step (ahead : Ahead client lead strict lax) (strictDistinct : strict.Distinct)
    (laxDistinct : lax.Distinct) (event : Event) :
    (strict.step event).touched? client = (lax.step event).touched? client := by
  -- Buckets are made and dropped on both sides at once, whatever they hold.
  rw [touched?_step strict strictDistinct,touched?_step lax laxDistinct]
  cases event <;> simp only [ahead.touched,ahead.now,ahead.stopped,ahead.settings.interval]

theorem level_call (ahead : Ahead client lead strict lax) (strictDistinct : strict.Distinct)
    (laxDistinct : lax.Distinct) (event : Event) (call : event.client?.isSome) :
    ∃ lead' : Nat, lead' + (strict.grants client event).toNat = lead + (lax.grants client event).toNat ∧
      (strict.step event).level client ≤ (lax.step event).level client + lead' := by
  have covered := ahead.level
  rw [Limiter.level_call strict strictDistinct client event call,Limiter.level_call lax laxDistinct client event call]
  cases strictly : strict.grants client event with
  | false =>
    cases laxly : lax.grants client event with
    | false => exact ⟨lead,rfl,by simpa using covered⟩
    | true =>
      refine ⟨lead + 1,rfl,?_⟩
      simp only [Bool.false_eq_true,if_false,if_true]
      push_cast
      linarith
  | true =>
    cases laxly : lax.grants client event with
    | true => exact ⟨lead,rfl,by simpa [sub_add_eq_add_sub] using covered⟩
    | false =>
      obtain ⟨rfl,enough⟩ : event = .allow client ∧ 1 ≤ strict.level client := by
        simpa [grants,allow_eq] using strictly
      have short : lax.level client < 1 := by simpa [grants,allow_eq] using laxly
      -- The strict limiter alone grants this, which takes one from the lead: there is one to take.
      have some : 0 < lead := by
        have positive : (0 : Rat) < lead := by linarith
        exact_mod_cast positive
      obtain ⟨rest,rfl⟩ := Nat.exists_eq_succ_of_ne_zero some.ne'
      refine ⟨rest,rfl,?_⟩
      push_cast at covered
      simp only [Bool.false_eq_true,if_false,if_true]
      linarith

theorem level_advance (ahead : Ahead client lead strict lax) (strictSound : strict.Sound) (laxSound : lax.Sound)
    (ns : Nat) : (strict.step (.advance ns)).level client ≤ (lax.step (.advance ns)).level client + lead := by
  have burst : (strict.settings.burst : Rat) ≤ lax.settings.burst := by exact_mod_cast ahead.settings.burst
  have gain := mul_le_mul_of_nonneg_left ahead.settings.rate (seconds_nonneg ns)
  have nonneg : (0 : Rat) ≤ lead := lead.cast_nonneg
  rw [level_advance_eq strict strictSound,level_advance_eq lax laxSound,← min_add_add_right]
  apply min_le_min
  · linarith
  · linarith [ahead.level]

theorem level_tick (ahead : Ahead client lead strict lax) (strictDistinct : strict.Distinct)
    (laxDistinct : lax.Distinct) : (strict.step .tick).level client ≤ (lax.step .tick).level client + lead := by
  rw [level_of_tick strict strictDistinct,level_of_tick lax laxDistinct,
    ahead.touched_step strictDistinct laxDistinct .tick]
  split
  next =>
    have burst : (strict.settings.burst : Rat) ≤ lax.settings.burst := by exact_mod_cast ahead.settings.burst
    exact le_add_of_le_of_nonneg burst lead.cast_nonneg
  next => exact ahead.level

theorem level_step (ahead : Ahead client lead strict lax) (strictSound : strict.Sound) (laxSound : lax.Sound)
    (event : Event) :
    ∃ lead' : Nat, lead' + (strict.grants client event).toNat = lead + (lax.grants client event).toNat ∧
      (strict.step event).level client ≤ (lax.step event).level client + lead' := by
  cases event with
  | allow caller => exact ahead.level_call strictSound.distinct laxSound.distinct (.allow caller) rfl
  | standing caller => exact ahead.level_call strictSound.distinct laxSound.distinct (.standing caller) rfl
  | advance ns => exact ⟨lead,rfl,ahead.level_advance strictSound laxSound ns⟩
  | tick => exact ⟨lead,rfl,ahead.level_tick strictSound.distinct laxSound.distinct⟩
  | stop => exact ⟨lead,rfl,ahead.level⟩

theorem step (ahead : Ahead client lead strict lax) (strictSound : strict.Sound) (laxSound : lax.Sound)
    (event : Event) :
    ∃ lead' : Nat, lead' + (strict.grants client event).toNat = lead + (lax.grants client event).toNat ∧
      Ahead client lead' (strict.step event) (lax.step event) := by
  obtain ⟨lead',account,level⟩ := ahead.level_step strictSound laxSound event
  refine ⟨lead',account,?_,?_,?_,?_,level⟩
  · simpa using ahead.settings
  · rw [step_now,step_now,ahead.now]
  · rw [step_stopped,step_stopped,ahead.stopped]
  · exact ahead.touched_step strictSound.distinct laxSound.distinct event

end Ahead

theorem count_verdicts (limiter : Limiter Rat) (client : Client) (event : Event) (events : List Event) :
    (limiter.verdicts client (event :: events)).count true =
      (limiter.grants client event).toNat + ((limiter.step event).verdicts client events).count true := by
  by_cases asks : event = .allow client
  · cases granted : (limiter.allow client).1 <;> simp [verdicts,grants,asks,granted,Nat.add_comm]
  · simp [verdicts,grants,asks]

theorem Ahead.count_le {client : Client} {lead : Nat} {strict lax : Limiter Rat}
    (ahead : Ahead client lead strict lax) (strictSound : strict.Sound) (laxSound : lax.Sound) (events : List Event) :
    (strict.verdicts client events).count true ≤ (lax.verdicts client events).count true + lead := by
  induction events generalizing lead strict lax with
  | nil => simp [verdicts]
  | cons event events ih =>
    obtain ⟨lead',account,next⟩ := ahead.step strictSound laxSound event
    have rest := ih next (strictSound.step event) (laxSound.step event)
    rw [count_verdicts,count_verdicts]
    omega

theorem Settings.Stricter.count_le {strict lax : Settings} (stricter : strict.Stricter lax) (steady : 0 ≤ strict.rate)
    (client : Client) (events : List Event) :
    (({ settings := strict } : Limiter Rat).verdicts client events).count true ≤
      (({ settings := lax } : Limiter Rat).verdicts client events).count true := by
  have burst : (strict.burst : Rat) ≤ lax.burst := by exact_mod_cast stricter.burst
  have ahead : Ahead client 0 { settings := strict } { settings := lax } := by
    refine ⟨stricter,rfl,rfl,rfl,?_⟩
    rw [level_of_none _ _ rfl,level_of_none _ _ rfl]
    simpa using burst
  exact ahead.count_le (sound_fresh strict steady) (sound_fresh lax (steady.trans stricter.rate)) events

theorem clamped_stricter (slow fast small large interval : Int) (rate : slow ≤ fast) (burst : small ≤ large) :
    (Settings.clamped slow small interval).Stricter (Settings.clamped fast large interval) where
  rate := by
    have cast : (slow : Rat) ≤ fast := by exact_mod_cast rate
    rw [Settings.rate_eq,Settings.rate_eq]
    simp only [Settings.clamped]
    linarith
  burst := by
    simp only [Settings.clamped]
    split <;> split <;> omega
  interval := rfl

/-- With more requests a minute and a larger burst a client has at no time been let through
less often, whatever else happened. A single request may still be let through by the stricter
limiter and refused by the other. -/
theorem generous_grants_no_less :
    (∀ (events : List Event) (client : Client) (slow fast small large interval : Int),
      0 ≤ slow → slow ≤ fast → small ≤ large →
        (({ settings := .clamped slow small interval } : Limiter Rat).verdicts client events).count true ≤
          (({ settings := .clamped fast large interval } : Limiter Rat).verdicts client events).count true) ∧
    ∃ (events : List Event) (client : Client) (slow fast small large interval : Int),
      (0 ≤ slow ∧ slow ≤ fast ∧ 1 ≤ small ∧ small ≤ large) ∧
        ((({ settings := .clamped slow small interval } : Limiter Rat).after events).allow client).1 = true ∧
        ((({ settings := .clamped fast large interval } : Limiter Rat).after events).allow client).1 = false := by
  constructor
  · intro events client slow fast small large interval nonneg rate burst
    have steady := (Settings.clamped slow small interval).rate_nonneg nonneg
    exact (clamped_stricter slow fast small large interval rate burst).count_le steady client events
  · -- The faster limiter has its token after three quarters of a second and has spent it a
    -- quarter of a second later.
    let client := utf8 "a"
    refine ⟨[.allow client,.advance 750000000,.allow client,.advance 250000000],client,60,80,1,1,0,by decide,?_,?_⟩
    · decide +kernel
    · decide +kernel

/-- The stricter limiter overtakes for one request and is level again, then a tick drops both
buckets. -/
theorem generous_grants_no_less_overtaken :
    let client := utf8 "a"
    let events : List Event := [.allow client,.advance 750000000,.allow client,.advance 250000000,.tick,.allow client,
      .advance 1000000000,.tick,.allow client]
    let strict : Limiter Rat := { settings := .clamped 60 1 1000000000 }
    let lax : Limiter Rat := { settings := .clamped 80 1 1000000000 }
    ((0 : Int) ≤ 60 ∧ (60 : Int) ≤ 80 ∧ (1 : Int) ≤ 1) ∧
      strict.verdicts client events = [true,false,true,true] ∧ lax.verdicts client events = [true,true,false,true] ∧
      (strict.verdicts client events).count true ≤ (lax.verdicts client events).count true := by
  intro client events strict lax
  refine ⟨by decide,by decide +kernel,by decide +kernel,?_⟩
  exact generous_grants_no_less.1 events client 60 80 1 1 1000000000 (by decide) (by decide) (by decide)

end SqlTidy.Limiter
