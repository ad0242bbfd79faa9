import SqlTidy.Proofs.RateLimit.Guarantee
import Mathlib.Data.List.Chain

/-! Runs of a single bucket under a clock that never goes back. Time pays in no more than the
rate allows and a grant takes out one token, so that the grants from some moment up to a
deadline are covered by the level at that moment and the refill until the deadline. Since
no level exceeds the capacity, this bounds the grants of every window. -/
namespace SqlTidy.Bucket
open Tokens

inductive Call where
  | allow
  | remaining
deriving Repr, DecidableEq

structure TimedCall where
  time : Nat
  call : Call
deriving Repr, DecidableEq

/-- No call is made before `start`, nor before the call that precedes it. -/
def Ordered (start : Nat) (calls : List TimedCall) : Prop := (start :: calls.map TimedCall.time).IsChain (· ≤ ·)

theorem ordered_cons (start : Nat) (timed : TimedCall) (calls : List TimedCall) :
    Ordered start (timed :: calls) ↔ start ≤ timed.time ∧ Ordered timed.time calls := List.isChain_cons_cons

theorem Ordered.least {start : Nat} {calls : List TimedCall} (ordered : Ordered start calls) :
    ∀ time ∈ calls.map TimedCall.time, start ≤ time :=
  (List.pairwise_cons.mp (List.isChain_iff_pairwise.mp ordered)).1

section Run

variable {α : Type} [Tokens α]

def step (bucket : Bucket α) (timed : TimedCall) : Bucket α :=
  match timed.call with
  | .allow => (bucket.allow timed.time).2
  | .remaining => bucket

def after (bucket : Bucket α) (calls : List TimedCall) : Bucket α := calls.foldl step bucket

def grants (bucket : Bucket α) (timed : TimedCall) : Bool := timed.call == .allow && (bucket.allow timed.time).1

def grantTimes (bucket : Bucket α) (calls : List TimedCall) : List Nat :=
  timesCounted step grants (fun _ timed => timed.time) bucket calls

theorem grantTimes_sublist (bucket : Bucket α) (calls : List TimedCall) :
    (bucket.grantTimes calls).Sublist (calls.map TimedCall.time) := by
  induction calls generalizing bucket with
  | nil => exact List.Sublist.slnil
  | cons timed calls ih =>
    simp only [grantTimes,timesCounted,List.map_cons]
    split
    next => exact (ih _).cons_cons _
    next => exact (ih _).cons _

end Run

variable {bucket : Bucket Rat} {now : Nat}

theorem step_fixed (bucket : Bucket Rat) (timed : TimedCall) :
    (bucket.step timed).capacity = bucket.capacity ∧ (bucket.step timed).rate = bucket.rate := by
  unfold step
  split
  next => simp [allow_eq]
  next => exact ⟨rfl,rfl⟩

theorem level_step (bucket : Bucket Rat) (timed : TimedCall) :
    (bucket.step timed).level timed.time = bucket.level timed.time - if bucket.grants timed then 1 else 0 := by
  unfold step grants
  cases timed.call with
  | allow => simpa using bucket.level_allow timed.time
  | remaining => simp

theorem Sound.reach (sound : bucket.Sound now) (time : Nat) (later : now ≤ time) : bucket.Sound time := by
  obtain ⟨ns,rfl⟩ := Nat.exists_eq_add_of_le later
  exact sound.later ns

theorem Sound.step (sound : bucket.Sound now) (timed : TimedCall) (later : now ≤ timed.time) :
    (bucket.step timed).Sound timed.time := by
  have reached := sound.reach timed.time later
  unfold Bucket.step
  split
  next => exact reached.allow
  next => exact reached

theorem Sound.after (sound : bucket.Sound now) (calls : List TimedCall) (ordered : Ordered now calls) :
    ∃ last, (bucket.after calls).Sound last ∧ (bucket.after calls).capacity = bucket.capacity := by
  induction calls generalizing bucket now with
  | nil => exact ⟨now,sound,rfl⟩
  | cons timed calls ih =>
    obtain ⟨later,rest⟩ := (ordered_cons _ _ _).mp ordered
    obtain ⟨last,steady,capacity⟩ := ih (sound.step timed later) rest
    exact ⟨last,steady,capacity.trans (bucket.step_fixed timed).1⟩

/-- What a bucket gains up to a later time is no more than the yield of the time between. -/
theorem Sound.level_reach (sound : bucket.Sound now) (time : Nat) (later : now ≤ time) :
    bucket.level time ≤ bucket.level now + (seconds time - seconds now) * bucket.rate := by
  obtain ⟨ns,rfl⟩ := Nat.exists_eq_add_of_le later
  have gain := sound.level_later ns
  rwa [seconds_add,add_sub_cancel_left]

/-- How many of some times lie no later than `stop`. -/
def countBy (stop : Rat) (times : List Nat) : Nat := times.countP fun time => decide (seconds time ≤ stop)

theorem countBy_over (bucket : Bucket Rat) (first : Nat) (calls : List TimedCall) (ordered : Ordered first calls)
    (stop : Rat) (beyond : stop < seconds first) : countBy stop (bucket.grantTimes calls) = 0 := by
  refine List.countP_eq_zero.mpr fun time member => ?_
  have behind := ordered.least time ((bucket.grantTimes_sublist calls).subset member)
  simpa using beyond.trans_le (seconds_le first time behind)

theorem within_le_countBy (start length : Rat) (times : List Nat) :
    Limiter.within start length times ≤ countBy (start + length) times := by
  refine List.countP_mono_left fun time _ inside => ?_
  have both : start ≤ seconds time ∧ seconds time ≤ start + length := by simpa using inside
  simpa using both.2

/-- Up to a deadline a bucket grants what it holds now and what flows in until then. -/
theorem Sound.granted_le (sound : bucket.Sound now) (calls : List TimedCall) (ordered : Ordered now calls)
    (stop : Rat) (ahead : seconds now ≤ stop) :
    (countBy stop (bucket.grantTimes calls) : Rat) ≤ bucket.level now + (stop - seconds now) * bucket.rate := by
  have covered := add_nonneg sound.level_nonneg (mul_nonneg (sub_nonneg.mpr ahead) sound.rate)
  induction calls generalizing bucket now with
  | nil => simpa [grantTimes,timesCounted,countBy] using covered
  | cons timed calls ih =>
    obtain ⟨later,rest⟩ := (ordered_cons _ _ _).mp ordered
    by_cases inside : seconds timed.time ≤ stop
    · have next := sound.step timed later
      have spent := ih next rest inside (add_nonneg next.level_nonneg (mul_nonneg (sub_nonneg.mpr inside) next.rate))
      have gained := sound.level_reach timed.time later
      have counted : (countBy stop (bucket.grantTimes (timed :: calls)) : Rat) =
          countBy stop ((bucket.step timed).grantTimes calls) + if bucket.grants timed then 1 else 0 := by
        rw [countBy,grantTimes,countP_timesCounted]
        simp [inside,countBy,grantTimes]
      rw [level_step,(bucket.step_fixed timed).2] at spent
      linarith
    · rw [countBy_over bucket timed.time _ ((ordered_cons _ _ _).mpr ⟨le_rfl,rest⟩) stop (not_le.mp inside)]
      simpa using covered

/-- Until a window begins nothing is counted; from its first call on the bound up to its end
applies, with a level of at most the capacity. -/
theorem Sound.within_le (sound : bucket.Sound now) (calls : List TimedCall) (ordered : Ordered now calls)
    (start length : Rat) (forward : 0 ≤ length) :
    (Limiter.within start length (bucket.grantTimes calls) : Rat) ≤ bucket.capacity + bucket.rate * length := by
  induction calls generalizing bucket now with
  | nil =>
    have room := sound.tokens.trans sound.capacity
    simpa [grantTimes,timesCounted,Limiter.within] using add_nonneg room (mul_nonneg sound.rate forward)
  | cons timed calls ih =>
    obtain ⟨later,rest⟩ := (ordered_cons _ _ _).mp ordered
    by_cases begun : start ≤ seconds timed.time
    · have reached := sound.reach timed.time later
      have most := bucket.level_le_capacity timed.time
      have counted : (Limiter.within start length (bucket.grantTimes (timed :: calls)) : Rat) ≤
          countBy (start + length) (bucket.grantTimes (timed :: calls)) := by
        exact_mod_cast within_le_countBy start length _
      have here : Ordered timed.time (timed :: calls) := (ordered_cons _ _ _).mpr ⟨le_rfl,rest⟩
      by_cases inside : seconds timed.time ≤ start + length
      · have granted := reached.granted_le _ here (start + length) inside
        have left : (start + length - seconds timed.time) * bucket.rate ≤ length * bucket.rate :=
          mul_le_mul_of_nonneg_right (by linarith) sound.rate
        linarith
      · rw [countBy_over bucket timed.time _ here _ (not_le.mp inside)] at counted
        push_cast at counted
        linarith [reached.level_nonneg,mul_nonneg sound.rate forward]
    · have skipped : Limiter.within start length (bucket.grantTimes (timed :: calls)) =
          Limiter.within start length ((bucket.step timed).grantTimes calls) := by
        rw [Limiter.within,grantTimes,countP_timesCounted]
        simp [begun,Limiter.within,grantTimes]
      have bound := ih (sound.step timed later) rest
      obtain ⟨capacity,rate⟩ := bucket.step_fixed timed
      rwa [capacity,rate,← skipped] at bound

/-- However a bucket is asked under a clock that never goes back, it holds no less than
nothing and no more than its capacity, and in a window of `length` seconds, wherever it
begins, it grants at most its capacity and what the rate yields in that time. -/
theorem run_bounded (capacity rate : Rat) (room : 0 ≤ capacity) (steady : 0 ≤ rate) (made : Nat)
    (calls : List TimedCall) (ordered : Ordered made calls) :
    let bucket := full capacity rate made
    (0 ≤ (bucket.after calls).tokens ∧ (bucket.after calls).tokens ≤ capacity) ∧
      ∀ start length : Rat, 0 ≤ length →
        (Limiter.within start length (bucket.grantTimes calls) : Rat) ≤ capacity + rate * length := by
  intro bucket
  have sound : bucket.Sound made := full_sound capacity rate made room steady
  obtain ⟨last,reached,same⟩ := sound.after calls ordered
  refine ⟨⟨reached.tokens,?_⟩,?_⟩
  · exact reached.capacity.trans_eq same
  · intro start length forward
    exact sound.within_le calls ordered start length forward

/-- The bound is reached: a token and a half and half a token a second make two grants in
a second, with a refused call between them. -/
theorem run_bounded_second :
    let calls : List TimedCall := [⟨0,.allow⟩,⟨0,.allow⟩,⟨500000000,.remaining⟩,⟨1000000000,.allow⟩]
    (0 ≤ (3 / 2 : Rat) ∧ 0 ≤ (1 / 2 : Rat) ∧ Ordered 0 calls) ∧
      Limiter.within 0 1 ((full (3 / 2 : Rat) (1 / 2) 0).grantTimes calls) = 2 ∧
      (Limiter.within 0 1 ((full (3 / 2 : Rat) (1 / 2) 0).grantTimes calls) : Rat) ≤ 3 / 2 + 1 / 2 * 1 := by
  intro calls
  have ordered : Ordered 0 calls := by simp [calls,Ordered]
  obtain ⟨_,bound⟩ := run_bounded (3 / 2) (1 / 2) (by norm_num) (by norm_num) 0 calls ordered
  exact ⟨⟨by norm_num,by norm_num,ordered⟩,by decide +kernel,bound 0 1 zero_le_one⟩

end SqlTidy.Bucket
