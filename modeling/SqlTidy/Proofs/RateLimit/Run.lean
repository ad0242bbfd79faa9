import SqlTidy.RateLimit.Limiter
import Mathlib.Data.List.Nodup

/-! Runs of a limiter. Clients ask to be let through or for their standing, the clock
moves on, a tick cleans up, and a stop ends the ticks; a run is any sequence of these.
What an event does is stated once, by what it makes of the bucket of one client. -/
namespace SqlTidy

section Times

variable {σ ε : Type} (step : σ → ε → σ) (counts : σ → ε → Bool) (time : σ → ε → Nat)

/-- The times of the events of a run that count in the states in which they happen. -/
def timesCounted : σ → List ε → List Nat
  | _,[] => []
  | state,event :: events =>
    let rest := timesCounted (step state event) events
    if counts state event then time state event :: rest else rest

theorem timesCounted_append (state : σ) (first second : List ε) :
    timesCounted step counts time state (first ++ second) =
      timesCounted step counts time state first ++ timesCounted step counts time (first.foldl step state) second := by
  induction first generalizing state with
  | nil => rfl
  | cons event first ih =>
    simp only [List.cons_append,timesCounted,ih,List.foldl_cons]
    split <;> rfl

theorem countP_timesCounted (p : Nat → Bool) (state : σ) (event : ε) (events : List ε) :
    (timesCounted step counts time state (event :: events)).countP p =
      (timesCounted step counts time (step state event) events).countP p +
        if counts state event && p (time state event) then 1 else 0 := by
  cases counted : counts state event <;> simp [timesCounted,counted,List.countP_cons]

variable {counts}

theorem timesCounted_congr {counts' : σ → ε → Bool} (state : σ) (events : List ε)
    (alike : ∀ state, ∀ event ∈ events, counts state event = counts' state event) :
    timesCounted step counts time state events = timesCounted step counts' time state events := by
  induction events generalizing state with
  | nil => rfl
  | cons event events ih =>
    have rest := ih (step state event) fun state event member => alike state event (List.mem_cons_of_mem _ member)
    simp only [timesCounted,rest,alike state event List.mem_cons_self]

theorem timesCounted_eq_nil (state : σ) (events : List ε)
    (silent : ∀ state, ∀ event ∈ events, counts state event = false) :
    timesCounted step counts time state events = [] := by
  induction events generalizing state with
  | nil => rfl
  | cons event events ih =>
    rw [timesCounted,silent state event List.mem_cons_self]
    exact ih (step state event) fun state event member => silent state event (List.mem_cons_of_mem _ member)

end Times

theorem Bucket.allow_touched {α : Type} [Tokens α] (bucket : Bucket α) (now : Nat) :
    (bucket.allow now).2.touched = now := by
  simp only [allow]
  split <;> rfl

namespace Limiter

inductive Event where
  | allow (client : Client)
  | standing (client : Client)
  | advance (ns : Nat)
  | tick
  | stop
deriving Repr, DecidableEq

inductive Answer where
  | allowed (granted : Bool)
  | standing (remaining limit : Int)
deriving Repr, DecidableEq

namespace Event

def client? : Event → Option Client
  | allow client => some client
  | standing client => some client
  | _ => none

def elapsed : Event → Nat
  | advance ns => ns
  | _ => 0

end Event

variable {α : Type}

def Distinct (limiter : Limiter α) : Prop := (limiter.buckets.map Prod.fst).Nodup

/-- When the bucket of a client was last touched, if it has one. -/
def touched? (limiter : Limiter α) (client : Client) : Option Nat := (limiter.bucket? client).map Bucket.touched

theorem distinct_fresh (settings : Settings) : ({ settings } : Limiter α).Distinct := List.nodup_nil

theorem lookup_filter_other {κ β : Type} [BEq κ] [LawfulBEq κ] (entries : List (κ × β)) (key other : κ)
    (different : other ≠ key) : (entries.filter (·.1 != key)).lookup other = entries.lookup other := by
  induction entries with
  | nil => rfl
  | cons entry entries ih =>
    rcases entry with ⟨owner,value⟩
    by_cases own : owner = key
    · subst owner
      have test : (other == key) = false := beq_eq_false_iff_ne.mpr different
      simp [List.lookup_cons,test,ih]
    · simp [List.lookup_cons,own,ih]

private theorem lookup_filter_bucket (entries : List (Client × Bucket α))
    (distinct : (entries.map Prod.fst).Nodup) (keep : Bucket α → Bool) (client : Client) :
    (entries.filter fun entry => keep entry.2).lookup client = (entries.lookup client).filter keep := by
  induction entries with
  | nil => rfl
  | cons entry entries ih =>
    rcases entry with ⟨owner,bucket⟩
    obtain ⟨absent,rest⟩ := List.nodup_cons.mp distinct
    by_cases own : client = owner
    · subst client
      cases kept : keep bucket with
      | true => simp [Option.filter,kept]
      | false =>
        -- No second entry of the same client can come to light.
        have missing : entries.lookup owner = none := by
          apply List.lookup_eq_none_iff.mpr
          intro entry member
          have other : owner ≠ entry.1 := fun same => absent (List.mem_map.mpr ⟨entry,member,same.symm⟩)
          simpa using other
        simp [Option.filter,kept,ih rest,missing]
    · have test : (client == owner) = false := beq_eq_false_iff_ne.mpr own
      cases kept : keep bucket <;> simp [kept,List.lookup_cons,test,ih rest]

theorem bucket?_put (limiter : Limiter α) (client other : Client) (bucket : Bucket α) :
    (limiter.put client bucket).bucket? other =
      if other = client then some bucket else limiter.bucket? other := by
  split
  next same => subst other; simp [bucket?,put]
  next different =>
    have test : (other == client) = false := beq_eq_false_iff_ne.mpr different
    simp only [bucket?,put,List.lookup_cons,test]
    exact lookup_filter_other _ _ _ different

theorem bucket?_cleanup (limiter : Limiter α) (distinct : limiter.Distinct) (client : Client) :
    limiter.cleanup.2.bucket? client = (limiter.bucket? client).filter
      fun bucket => !bucket.isIdle limiter.settings.interval limiter.now :=
  lookup_filter_bucket limiter.buckets distinct
    (fun bucket => !bucket.isIdle limiter.settings.interval limiter.now) client

theorem cleanup_cases (limiter : Limiter α) :
    (limiter.cleanup.1 = [] ∧ limiter.cleanup.2 = limiter) ∨
      ∃ record, limiter.cleanup.1 = [record] ∧ 0 < record.removed ∧
        record.remaining = limiter.cleanup.2.buckets.length ∧
        record.removed + record.remaining = limiter.buckets.length := by
  have kept : limiter.cleanup.2.buckets.Sublist limiter.buckets := List.filter_sublist
  have fewer := kept.length_le
  have report : limiter.cleanup.1 = if limiter.buckets.length - limiter.cleanup.2.buckets.length == 0 then []
      else [⟨limiter.buckets.length - limiter.cleanup.2.buckets.length,limiter.cleanup.2.buckets.length⟩] := rfl
  by_cases none : limiter.buckets.length - limiter.cleanup.2.buckets.length = 0
  · left
    have all : limiter.cleanup.2.buckets = limiter.buckets := kept.eq_of_length (by omega)
    refine ⟨by simp [report,none],?_⟩
    calc limiter.cleanup.2 = { limiter with buckets := limiter.cleanup.2.buckets } := rfl
      _ = limiter := by rw [all]
  · right
    refine ⟨_,by rw [report,if_neg (by simpa using none)],?_,rfl,?_⟩ <;> simp only <;> omega

theorem cleanup_empty (limiter : Limiter α) (empty : limiter.buckets = []) : limiter.cleanup = ([],limiter) := by
  rcases limiter.cleanup_cases with ⟨silent,same⟩ | ⟨record,_,some,_,total⟩
  · exact Prod.ext silent same
  · simp only [empty,List.length_nil] at total
    omega

variable [Tokens α]

def step (limiter : Limiter α) : Event → Limiter α
  | .allow client => (limiter.allow client).2
  | .standing _ => limiter
  | .advance ns => limiter.advance ns
  | .tick => if limiter.stopped then limiter else limiter.cleanup.2
  | .stop => limiter.stop

def answer? (limiter : Limiter α) : Event → Option Answer
  | .allow client => some (.allowed (limiter.allow client).1)
  | .standing client => some (.standing (limiter.standing client).1 (limiter.standing client).2)
  | _ => none

def after (limiter : Limiter α) (events : List Event) : Limiter α := events.foldl step limiter

def answersTo (limiter : Limiter α) (client : Client) : List Event → List Answer
  | [] => []
  | event :: events =>
    let rest := (limiter.step event).answersTo client events
    if event.client? = some client then (limiter.answer? event).toList ++ rest else rest

@[simp] theorem step_settings (limiter : Limiter α) (event : Event) :
    (limiter.step event).settings = limiter.settings := by
  cases event with
  | tick => simp only [step]; split <;> rfl
  | _ => rfl

theorem step_now (limiter : Limiter α) (event : Event) :
    (limiter.step event).now = limiter.now + event.elapsed := by
  cases event with
  | tick => simp only [step]; split <;> rfl
  | _ => rfl

theorem step_stopped (limiter : Limiter α) (event : Event) :
    (limiter.step event).stopped = (limiter.stopped || event == .stop) := by
  cases event with
  | tick => cases stopped : limiter.stopped <;> simp [step,stopped,cleanup]
  | _ => simp [step,allow,put,advance,stop]

/-- What an event makes of the bucket of a client: only the client's own requests and
the ticks touch it. -/
theorem bucket?_step (limiter : Limiter α) (distinct : limiter.Distinct) (event : Event) (client : Client) :
    (limiter.step event).bucket? client =
      match event with
      | .allow other =>
        if client = other then some ((limiter.bucketOf client).allow limiter.now).2 else limiter.bucket? client
      | .tick =>
        if limiter.stopped then limiter.bucket? client
        else (limiter.bucket? client).filter
          fun bucket => !bucket.isIdle limiter.settings.interval limiter.now
      | _ => limiter.bucket? client := by
  cases event with
  | allow other =>
    simp only [step,allow,bucket?_put]
    split
    next same => subst client; rfl
    next => rfl
  | tick =>
    simp only [step]
    split
    next => rfl
    next => exact bucket?_cleanup limiter distinct client
  | _ => rfl

/-- The same for the time of the last touch, which no tokens decide. -/
theorem touched?_step (limiter : Limiter α) (distinct : limiter.Distinct) (event : Event) (client : Client) :
    (limiter.step event).touched? client =
      match event with
      | .allow other => if client = other then some limiter.now else limiter.touched? client
      | .tick =>
        if limiter.stopped then limiter.touched? client
        else (limiter.touched? client).filter fun time => limiter.now - time < limiter.settings.interval
      | _ => limiter.touched? client := by
  rw [touched?,bucket?_step limiter distinct]
  cases event with
  | allow other =>
    simp only
    split
    next => rw [Option.map_some,Bucket.allow_touched]
    next => rfl
  | tick =>
    simp only
    split
    next => rfl
    next =>
      rw [touched?]
      cases limiter.bucket? client with
      | none => rfl
      | some bucket => simp [Option.filter,Bucket.isIdle]
  | _ => rfl

theorem tick_drops (limiter : Limiter α) (distinct : limiter.Distinct) (running : limiter.stopped = false)
    (client : Client) (bucket : Bucket α) (held : limiter.bucket? client = some bucket)
    (idle : bucket.isIdle limiter.settings.interval limiter.now = true) :
    (limiter.step .tick).bucket? client = none := by
  rw [bucket?_step limiter distinct,held]
  simp [running,Option.filter,idle]

theorem tick_keeps (limiter : Limiter α) (distinct : limiter.Distinct) (client : Client) (bucket : Bucket α)
    (held : limiter.bucket? client = some bucket)
    (busy : bucket.isIdle limiter.settings.interval limiter.now = false) :
    (limiter.step .tick).bucket? client = some bucket := by
  rw [bucket?_step limiter distinct,held]
  simp [Option.filter,busy]

theorem distinct_step (limiter : Limiter α) (distinct : limiter.Distinct) (event : Event) :
    (limiter.step event).Distinct := by
  cases event with
  | allow client =>
    refine List.nodup_cons.mpr ⟨?_,?_⟩
    · simp
    · exact distinct.sublist (List.filter_sublist.map Prod.fst)
  | tick =>
    simp only [step]
    split
    next => exact distinct
    next => exact distinct.sublist (List.filter_sublist.map Prod.fst)
  | _ => exact distinct

theorem after_append (limiter : Limiter α) (first second : List Event) :
    limiter.after (first ++ second) = (limiter.after first).after second := List.foldl_append

theorem after_settings (limiter : Limiter α) (events : List Event) :
    (limiter.after events).settings = limiter.settings := by
  induction events generalizing limiter with
  | nil => rfl
  | cons event events ih => exact (ih (limiter.step event)).trans (step_settings limiter event)

theorem distinct_after (limiter : Limiter α) (distinct : limiter.Distinct) (events : List Event) :
    (limiter.after events).Distinct := by
  induction events generalizing limiter with
  | nil => exact distinct
  | cons event events ih => exact ih _ (distinct_step limiter distinct event)

/-- What the ticks of a run report. -/
def records (limiter : Limiter α) : List Event → List Cleanup
  | [] => []
  | event :: events =>
    (if event = .tick ∧ limiter.stopped = false then limiter.cleanup.1 else []) ++ (limiter.step event).records events

theorem records_append (limiter : Limiter α) (first second : List Event) :
    limiter.records (first ++ second) = limiter.records first ++ (limiter.after first).records second := by
  induction first generalizing limiter with
  | nil => rfl
  | cons event first ih => simp only [List.cons_append,records,ih,after,List.foldl_cons,List.append_assoc]

end Limiter
end SqlTidy
