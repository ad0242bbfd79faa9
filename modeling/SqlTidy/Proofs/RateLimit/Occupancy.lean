import SqlTidy.Proofs.RateLimit.Schedule
import SqlTidy.Proofs.RateLimit.Waiting

/-! Who has a bucket. With ticks on time a client has one exactly if its last request was less
than an interval old at the last tick, or came after it. A bucket is therefore never two
intervals old, and none is missed that is younger than one. -/
namespace SqlTidy.Limiter

variable {α : Type}

def clients (limiter : Limiter α) : List Client := limiter.buckets.map Prod.fst

theorem mem_clients (limiter : Limiter α) (client : Client) :
    client ∈ limiter.clients ↔ ∃ time, limiter.touched? client = some time := by
  have absent : limiter.touched? client = none ↔ client ∉ limiter.clients := by
    rw [touched?,Option.map_eq_none_iff,bucket?,List.lookup_eq_none_iff,clients]
    constructor
    · intro other member
      obtain ⟨entry,inside,same⟩ := List.mem_map.mp member
      simpa [same] using other entry inside
    · intro missing entry inside
      have other : client ≠ entry.1 := fun same => missing (List.mem_map.mpr ⟨entry,inside,same.symm⟩)
      simpa using other
  rw [← Option.ne_none_iff_exists',ne_eq,absent,not_not]

theorem cleanup_report (limiter : Limiter α) :
    (limiter.cleanup.1 = [] → limiter.cleanup.2.clients = limiter.clients) ∧
      ∀ record ∈ limiter.cleanup.1, 0 < record.removed ∧ record.remaining = limiter.cleanup.2.clients.length ∧
        record.removed + record.remaining = limiter.clients.length := by
  rcases limiter.cleanup_cases with ⟨silent,same⟩ | ⟨record,report,some,left,total⟩
  · rw [silent,same]
    exact ⟨fun _ => rfl,by simp⟩
  · rw [report]
    simp only [reduceCtorEq,false_implies,List.mem_singleton,forall_eq,clients,List.length_map,true_and]
    exact ⟨some,left,total⟩

def lastAsk? [Tokens α] (limiter : Limiter α) (client : Client) (events : List Event) : Option Nat :=
  (limiter.askTimes client events).getLast?

theorem lastAsk?_cons [Tokens α] (limiter : Limiter α) (client : Client) (event : Event) (events : List Event)
    (last : Option Nat) :
    (limiter.lastAsk? client (event :: events)).or last =
      ((limiter.step event).lastAsk? client events).or (if event = .allow client then some limiter.now else last) := by
  unfold lastAsk?
  rw [askTimes_cons]
  split
  next => cases later : ((limiter.step event).askTimes client events).getLast? <;> simp [List.getLast?_cons,later]
  next => rfl

/-- A limiter whose next tick comes at `due`, as far as it concerns a client that asked at
`last` for the last time. -/
structure Tended (client : Client) (due : Nat) (last : Option Nat) (limiter : Limiter α) : Prop where
  distinct : limiter.Distinct
  running : limiter.stopped = false
  early : limiter.now ≤ due
  late : due ≤ limiter.now + limiter.settings.interval
  touched : ∀ time,
    limiter.touched? client = some time ↔ last = some time ∧ due < time + 2 * limiter.settings.interval

namespace Tended

variable {client : Client} {due : Nat} {last : Option Nat} {limiter : Limiter α}

theorem fresh (client : Client) (settings : Settings) :
    Tended client ({ settings } : Limiter α).nextTick none ({ settings } : Limiter α) where
  distinct := distinct_fresh settings
  running := rfl
  early := Nat.zero_le _
  late := by simp [nextTick]
  touched := by simp [touched?,bucket?]

theorem recent (tended : Tended client due last limiter) (member : client ∈ limiter.clients) :
    ∃ time, last = some time ∧ due < time + 2 * limiter.settings.interval := by
  obtain ⟨time,held⟩ := (limiter.mem_clients client).mp member
  exact ⟨time,(tended.touched time).mp held⟩

theorem present (tended : Tended client due last limiter) (time : Nat) (asked : last = some time)
    (young : limiter.now < time + limiter.settings.interval) : client ∈ limiter.clients := by
  have late := tended.late
  exact (limiter.mem_clients client).mpr ⟨time,(tended.touched time).mpr ⟨asked,by omega⟩⟩

variable [Tokens α]

theorem touched_step (tended : Tended client due last limiter) (event : Event)
    (onTime : event.OnTime limiter.now due) (time : Nat) :
    (limiter.step event).touched? client = some time ↔
      (if event = .allow client then some limiter.now else last) = some time ∧
        event.dueNext limiter.settings.interval due < time + 2 * limiter.settings.interval := by
  have positive := limiter.settings.interval_pos
  have late := tended.late
  have before := tended.touched time
  rw [touched?_step limiter tended.distinct]
  cases event with
  | allow caller =>
    by_cases own : client = caller
    · subst caller
      simp only [if_true,Option.some.injEq,Event.dueNext]
      omega
    · simpa [own,Ne.symm own,Event.dueNext] using before
  | tick =>
    have reached : limiter.now = due := onTime
    simp only [tended.running,Bool.false_eq_true,if_false,Option.filter_eq_some_iff,before,decide_eq_true_eq,
      Event.dueNext,reduceCtorEq,and_assoc]
    refine and_congr_right fun _ => ?_
    omega
  | advance ns => exact before
  | standing caller => exact before
  | stop => exact before

theorem step (tended : Tended client due last limiter) (event : Event) (onTime : event.OnTime limiter.now due) :
    Tended client (event.dueNext limiter.settings.interval due)
      (if event = .allow client then some limiter.now else last) (limiter.step event) := by
  have early := tended.early
  have late := tended.late
  refine ⟨distinct_step limiter tended.distinct event,?_,?_,?_,?_⟩
  · rw [step_stopped,tended.running]
    cases event with
    | stop => exact onTime.elim
    | _ => rfl
  · rw [step_now]
    cases event with
    | advance ns => exact onTime
    | tick => exact early.trans (Nat.le_add_right _ _)
    | _ => exact early
  · rw [step_now,step_settings]
    cases event with
    | advance ns => exact late.trans (Nat.add_le_add_right (Nat.le_add_right _ _) _)
    | tick => exact Nat.add_le_add_right (onTime : limiter.now = due).ge _
    | _ => exact late
  · intro time
    rw [step_settings]
    exact tended.touched_step event onTime time

theorem after (tended : Tended client due last limiter) (events : List Event)
    (punctual : TicksFrom limiter.settings.interval limiter.now due events) :
    Tended client (due + events.count .tick * limiter.settings.interval)
      ((limiter.lastAsk? client events).or last) (limiter.after events) := by
  induction events generalizing limiter due last with
  | nil => simpa [lastAsk?,askTimes,timesCounted,Limiter.after] using tended
  | cons event events ih =>
    obtain ⟨onTime,rest⟩ := punctual
    have next := tended.step event onTime
    have reached := ih next (by rwa [step_now,step_settings])
    rwa [step_settings,Event.dueNext_count,← lastAsk?_cons] at reached

end Tended

variable [Tokens α]

/-- The clients that have buckets after a run last asked less than so long ago. -/
def AskedWithin (limiter : Limiter α) (events : List Event) (age : Nat) : Prop :=
  ∀ client ∈ (limiter.after events).clients,
    ∃ time, limiter.lastAsk? client events = some time ∧ (limiter.after events).now < time + age

namespace Punctual

variable {settings : Settings} {events : List Event}

theorem tended (punctual : ({ settings } : Limiter α).Punctual events) (client : Client) :
    Tended client (settings.interval + events.count .tick * settings.interval)
      (({ settings } : Limiter α).lastAsk? client events) (({ settings } : Limiter α).after events) := by
  have tended := (Tended.fresh client settings).after events punctual
  have first : ({ settings } : Limiter α).nextTick = settings.interval := by simp [nextTick]
  rwa [first,Option.or_none] at tended

theorem askedWithin (punctual : ({ settings } : Limiter α).Punctual events) :
    ({ settings } : Limiter α).AskedWithin events (2 * settings.interval) := by
  intro client member
  have tended := punctual.tended client
  obtain ⟨time,asked,recent⟩ := tended.recent member
  rw [after_settings] at recent
  exact ⟨time,asked,tended.early.trans_lt recent⟩

theorem after_tick {before : List Event} (punctual : ({ settings } : Limiter α).Punctual (before ++ [.tick])) :
    ({ settings } : Limiter α).after (before ++ [.tick]) = (({ settings } : Limiter α).after before).cleanup.2 := by
  obtain ⟨earlier,_⟩ := (ticksFrom_append ({ settings } : Limiter α) _ before [.tick]).mp punctual
  have running := (Punctual.tended earlier []).running
  rw [after_append]
  change (({ settings } : Limiter α).after before).step .tick = _
  rw [step,running]
  rfl

theorem askedWithin_tick {before : List Event} (punctual : ({ settings } : Limiter α).Punctual (before ++ [.tick])) :
    ({ settings } : Limiter α).AskedWithin (before ++ [.tick]) settings.interval := by
  -- The tick came when it was due, so that the next one is a whole interval away.
  intro client member
  have due : (({ settings } : Limiter α).after before).now =
      settings.interval + before.count .tick * settings.interval := by
    obtain ⟨_,onTime,_⟩ := (ticksFrom_append ({ settings } : Limiter α) _ before [.tick]).mp punctual
    simpa [Event.OnTime,nextTick] using onTime
  have now : (({ settings } : Limiter α).after (before ++ [.tick])).now =
      (({ settings } : Limiter α).after before).now := by
    rw [after_append]
    exact step_now _ .tick
  obtain ⟨time,asked,recent⟩ := (punctual.tended client).recent member
  have same : (({ settings } : Limiter α).after (before ++ [.tick])).settings = settings := after_settings _ _
  rw [same,List.count_append,List.count_singleton_self,Nat.add_mul] at recent
  exact ⟨time,asked,by omega⟩

end Punctual

/-- With a tick at each multiple of the interval the map holds the clients that asked of late:
none that did not ask for two intervals, after a tick none that did not ask for one, and all that
asked within one. A tick that drops buckets reports how many went and how many are left, and
asking how one stands makes no bucket. Whatever is done with a limiter that cleans up by itself
is such a run, and its reports are those of the ticks. -/
theorem map_holds_recent :
    (∀ (events : List Event) (requestsPerMinute burst interval : Int),
      let fresh : Limiter α := { settings := .clamped requestsPerMinute burst interval }
      let reached := fresh.after events
      fresh.Punctual events →
        reached.clients.Nodup ∧ fresh.AskedWithin events (2 * fresh.settings.interval) ∧
        (∀ client time, fresh.lastAsk? client events = some time → reached.now < time + fresh.settings.interval →
          client ∈ reached.clients) ∧
        (∀ client, (reached.step (.standing client)).clients = reached.clients) ∧
        ∀ before, events = before ++ [.tick] →
          fresh.AskedWithin events fresh.settings.interval ∧
          ((fresh.after before).cleanup.1 = [] → reached.clients = (fresh.after before).clients) ∧
          ∀ record ∈ (fresh.after before).cleanup.1,
            0 < record.removed ∧ record.remaining = reached.clients.length ∧
              record.removed + record.remaining = (fresh.after before).clients.length) ∧
    ∀ (uses : List Use) (requestsPerMinute burst interval : Int),
      let fresh : Limiter α := { settings := .clamped requestsPerMinute burst interval }
      fresh.Punctual (fresh.schedule uses) ∧
        fresh.useAll uses = (fresh.records (fresh.schedule uses),fresh.after (fresh.schedule uses)) := by
  constructor
  · intro events requestsPerMinute burst interval fresh reached punctual
    refine ⟨distinct_after fresh (distinct_fresh _) events,punctual.askedWithin,?_,fun _ => rfl,?_⟩
    · intro client time asked young
      exact (punctual.tended client).present time asked (by rwa [after_settings])
    · rintro before rfl
      have swept : reached = (fresh.after before).cleanup.2 := punctual.after_tick
      rw [swept]
      exact ⟨punctual.askedWithin_tick,(fresh.after before).cleanup_report⟩
  · intro uses requestsPerMinute burst interval fresh
    exact ⟨schedule_punctual fresh rfl uses,useAll_eq fresh uses⟩

/-- With an interval of a second the tick after two seconds finds one client that asked one and
a half seconds ago and one that asked half a second ago. A third one only asked how it stands. -/
theorem map_holds_recent_seconds :
    let fresh : Limiter Rat := { settings := .clamped 60 1 1000000000 }
    let before : List Event := [.advance 500000000,.allow (utf8 "a"),.advance 500000000,.tick,.standing (utf8 "c"),
      .advance 500000000,.allow (utf8 "b"),.advance 500000000]
    fresh.Punctual (before ++ [.tick]) ∧ (fresh.after before).clients = [utf8 "b",utf8 "a"] ∧
      (fresh.after before).cleanup.1 = [⟨1,1⟩] ∧ fresh.AskedWithin (before ++ [.tick]) 1000000000 ∧
      utf8 "b" ∈ (fresh.after (before ++ [.tick])).clients := by
  intro fresh before
  have punctual : fresh.Punctual (before ++ [.tick]) := by decide
  obtain ⟨_,_,present,_,ticked⟩ := map_holds_recent.1 (before ++ [.tick]) 60 1 1000000000 punctual
  refine ⟨punctual,by decide +kernel,by decide +kernel,(ticked before rfl).1,?_⟩
  exact present (utf8 "b") 1500000000 (by decide +kernel) (by decide +kernel)

end SqlTidy.Limiter
