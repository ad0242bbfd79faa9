import SqlTidy.Proofs.RateLimit.Sleep

/-! Ticks on time. In a punctual run there is a tick at each multiple of the interval, before
the clock moves on from there, and none elsewhere; at that moment calls may come before the
tick or after it. A limiter that is used and sleeps in between runs punctually, and what its
sleeps report are the records of the ticks of that run. -/
namespace SqlTidy.Limiter

namespace Event

/-- Whether an event may come at a time, with the next tick due at another. -/
def OnTime (now due : Nat) : Event → Prop
  | advance ns => now + ns ≤ due
  | tick => now = due
  | stop => False
  | _ => True

instance (now due : Nat) : (event : Event) → Decidable (event.OnTime now due)
  | advance ns => inferInstanceAs (Decidable (now + ns ≤ due))
  | tick => inferInstanceAs (Decidable (now = due))
  | stop => inferInstanceAs (Decidable False)
  | allow _ => inferInstanceAs (Decidable True)
  | standing _ => inferInstanceAs (Decidable True)

def dueNext (interval due : Nat) : Event → Nat
  | tick => due + interval
  | _ => due

theorem dueNext_count (interval due : Nat) (event : Event) (events : List Event) :
    event.dueNext interval due + events.count .tick * interval = due + (event :: events).count .tick * interval := by
  by_cases ticks : event = .tick
  · subst event
    rw [List.count_cons_self,dueNext,Nat.add_mul]
    omega
  · rw [List.count_cons_of_ne ticks]
    cases event with
    | tick => exact absurd rfl ticks
    | _ => rfl

end Event

/-- Every tick comes when it is due, the next one an interval later, and none is left out. -/
def TicksFrom (interval : Nat) : (now due : Nat) → List Event → Prop
  | _, _, [] => True
  | now, due, event :: events =>
    event.OnTime now due ∧ TicksFrom interval (now + event.elapsed) (event.dueNext interval due) events

instance decidableTicksFrom (interval : Nat) :
    (now due : Nat) → (events : List Event) → Decidable (TicksFrom interval now due events)
  | _, _, [] => inferInstanceAs (Decidable True)
  | now, due, event :: events =>
    have := decidableTicksFrom interval (now + event.elapsed) (event.dueNext interval due) events
    inferInstanceAs (Decidable (event.OnTime now due ∧
      TicksFrom interval (now + event.elapsed) (event.dueNext interval due) events))

variable {α : Type}

def Punctual (limiter : Limiter α) (events : List Event) : Prop :=
  TicksFrom limiter.settings.interval limiter.now limiter.nextTick events

instance (limiter : Limiter α) (events : List Event) : Decidable (limiter.Punctual events) :=
  decidableTicksFrom limiter.settings.interval limiter.now limiter.nextTick events

theorem sleep_stopped (limiter : Limiter α) (ns : Nat) : (limiter.sleep ns).2.stopped = limiter.stopped := by
  suffices kept : ∀ (count : Nat) (limiter : Limiter α), (runTicks count limiter).2.stopped = limiter.stopped from
    kept _ limiter
  intro count
  induction count with
  | zero => exact fun _ => rfl
  | succ count ih =>
    intro limiter
    simp only [runTicks]
    split
    next => rfl
    next => exact ih _

theorem ticksFrom_ticks (interval : Nat) (positive : 0 < interval) (count now : Nat) (events : List Event) :
    TicksFrom interval now ((now / interval + 1) * interval) (ticks interval count now ++ events) ↔
      TicksFrom interval (max now ((now / interval + count) * interval)) ((now / interval + count + 1) * interval)
        events := by
  induction count generalizing now with
  | zero =>
    have floor := Nat.div_mul_le_self now interval
    simp only [Nat.add_zero,Nat.max_eq_left floor]
    rfl
  | succ count ih =>
    have floor := Nat.lt_mul_div_succ now positive
    rw [Nat.mul_comm] at floor
    have reached : now + ((now / interval + 1) * interval - now) = (now / interval + 1) * interval := by omega
    have quotient : (now / interval + 1) * interval / interval = now / interval + 1 := Nat.mul_div_cancel _ positive
    have far : (now / interval + 1) * interval ≤ (now / interval + (count + 1)) * interval :=
      Nat.mul_le_mul_right _ (by omega)
    have rest := ih ((now / interval + 1) * interval)
    rw [quotient,Nat.add_assoc _ 1 count,Nat.add_comm 1 count,Nat.max_eq_right far] at rest
    have due : (now / interval + 1) * interval + interval = (now / interval + 1 + 1) * interval :=
      (Nat.succ_mul _ _).symm
    rw [Nat.max_eq_right (by omega),← rest]
    simp only [ticks,List.cons_append,TicksFrom,Event.OnTime,Event.elapsed,Event.dueNext,reached,Nat.le_refl,true_and,
      Nat.add_zero,due]

theorem ticksFrom_passing (limiter : Limiter α) (running : limiter.stopped = false) (ns : Nat) (events : List Event) :
    TicksFrom limiter.settings.interval limiter.now limiter.nextTick (limiter.passing ns ++ events) ↔
      TicksFrom limiter.settings.interval (limiter.now + ns)
        (((limiter.now + ns) / limiter.settings.interval + 1) * limiter.settings.interval) events := by
  have last := div_add_ticksDue limiter running ns
  have floor := Nat.div_mul_le_self (limiter.now + ns) limiter.settings.interval
  have ceiling := Nat.lt_mul_div_succ (limiter.now + ns) limiter.settings.interval_pos
  rw [Nat.mul_comm] at ceiling
  rw [nextTick,passing,List.append_assoc,ticksFrom_ticks _ limiter.settings.interval_pos,last]
  generalize (limiter.now + ns) / limiter.settings.interval * limiter.settings.interval = tick at *
  have woken : max limiter.now tick + (limiter.now + ns - max limiter.now tick) = limiter.now + ns := by omega
  simp only [List.cons_append,List.nil_append,TicksFrom,Event.OnTime,Event.elapsed,Event.dueNext,woken,
    Nat.le_of_lt ceiling,true_and]

variable [Tokens α]

theorem ticksFrom_append (limiter : Limiter α) (due : Nat) (first second : List Event) :
    TicksFrom limiter.settings.interval limiter.now due (first ++ second) ↔
      TicksFrom limiter.settings.interval limiter.now due first ∧
        TicksFrom limiter.settings.interval (limiter.after first).now
          (due + first.count .tick * limiter.settings.interval) second := by
  induction first generalizing limiter due with
  | nil => simp [TicksFrom,after]
  | cons event first ih =>
    have rest := ih (limiter.step event) (event.dueNext limiter.settings.interval due)
    rw [step_now,step_settings,Event.dueNext_count] at rest
    simp only [List.cons_append,TicksFrom,rest,and_assoc]
    rfl

/-- What is done with a limiter: clients ask to be let through or how they stand, and time
passes in which the limiter cleans up by itself. -/
inductive Use where
  | allow (client : Client)
  | standing (client : Client)
  | sleep (ns : Nat)
deriving Repr, DecidableEq

def use (limiter : Limiter α) : Use → List Cleanup × Limiter α
  | .allow client => ([],(limiter.allow client).2)
  | .standing _ => ([],limiter)
  | .sleep ns => limiter.sleep ns

def useAll (limiter : Limiter α) : List Use → List Cleanup × Limiter α
  | [] => ([],limiter)
  | use :: uses =>
    let (first,limiter) := limiter.use use
    let (more,limiter) := limiter.useAll uses
    (first ++ more,limiter)

def events (limiter : Limiter α) : Use → List Event
  | .allow client => [.allow client]
  | .standing client => [.standing client]
  | .sleep ns => limiter.passing ns

def schedule (limiter : Limiter α) : List Use → List Event
  | [] => []
  | use :: uses => limiter.events use ++ (limiter.use use).2.schedule uses

theorem use_eq (limiter : Limiter α) (use : Use) :
    limiter.use use = (limiter.records (limiter.events use),limiter.after (limiter.events use)) := by
  cases use with
  | allow client => simp [Limiter.use,events,records,after,step]
  | standing client => simp [Limiter.use,events,records,after,step]
  | sleep ns => exact sleep_eq limiter ns

theorem sleep_settings (limiter : Limiter α) (ns : Nat) : (limiter.sleep ns).2.settings = limiter.settings := by
  rw [sleep_eq_after,after_settings]

theorem use_fixed (limiter : Limiter α) (use : Use) :
    (limiter.use use).2.settings = limiter.settings ∧ (limiter.use use).2.stopped = limiter.stopped := by
  cases use with
  | allow client => exact ⟨rfl,rfl⟩
  | standing client => exact ⟨rfl,rfl⟩
  | sleep ns => exact ⟨sleep_settings limiter ns,sleep_stopped limiter ns⟩

theorem punctual_events (limiter : Limiter α) (running : limiter.stopped = false) (use : Use) (events : List Event) (punctual : (limiter.use use).2.Punctual events) :
    limiter.Punctual (limiter.events use ++ events) := by
  cases use with
  | allow client => exact ⟨trivial,punctual⟩
  | standing client => exact ⟨trivial,punctual⟩
  | sleep ns =>
    have woken : (limiter.sleep ns).2.now = limiter.now + ns := rfl
    simp only [Punctual,Limiter.use,nextTick,sleep_settings,woken] at punctual
    exact (ticksFrom_passing limiter running ns events).mpr punctual

theorem schedule_punctual (limiter : Limiter α) (running : limiter.stopped = false) (uses : List Use) : limiter.Punctual (limiter.schedule uses) := by
  induction uses generalizing limiter with
  | nil => trivial
  | cons use uses ih =>
    have stopped := (limiter.use_fixed use).2
    have rest := ih (limiter.use use).2 (stopped.trans running)
    exact punctual_events limiter running use _ rest

theorem useAll_eq (limiter : Limiter α) (uses : List Use) :
    limiter.useAll uses = (limiter.records (limiter.schedule uses),limiter.after (limiter.schedule uses)) := by
  induction uses generalizing limiter with
  | nil => rfl
  | cons use uses ih =>
    have rest := ih (limiter.use use).2
    simp only [useAll,schedule,records_append,after_append]
    rw [use_eq limiter use] at rest ⊢
    rw [rest]

end SqlTidy.Limiter
