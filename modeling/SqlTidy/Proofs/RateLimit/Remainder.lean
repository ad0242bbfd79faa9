import SqlTidy.Proofs.RateLimit.Guarantee
import SqlTidy.Proofs.RateLimit.Waiting
import Mathlib.Algebra.Order.Floor.Semiring
import Mathlib.Data.Rat.Floor

/-! What remains. The standing of a client is its level without the fraction, whether it has
a bucket or not. While the clock stands still each grant takes a whole token and nothing
else changes the level, so that the standing is the number of grants that are left. -/
namespace SqlTidy
open Tokens

theorem whole_eq_floor (x : Rat) (nonneg : 0 ≤ x) : whole x = ⌊x⌋₊ := by
  change Int.tdiv x.num x.den = _
  rw [Int.tdiv_eq_ediv_of_nonneg (Rat.num_nonneg.mpr nonneg),← Rat.floor_def',Int.natCast_floor_eq_floor nonneg]

namespace Limiter

/-- What a client is told each time it asks to be let through. -/
def verdicts {α : Type} [Tokens α] (limiter : Limiter α) (client : Client) : List Event → List Bool
  | [] => []
  | event :: events =>
    let rest := (limiter.step event).verdicts client events
    if event = .allow client then (limiter.allow client).1 :: rest else rest

theorem Sound.standing_eq {limiter : Limiter Rat} (sound : limiter.Sound) (client : Client) :
    limiter.standing client = ((⌊limiter.level client⌋₊ : Int),(limiter.settings.burst : Int)) := by
  have nonneg := sound.level_nonneg client
  simp only [standing]
  split
  next bucket held =>
    rw [level_of_some limiter client bucket held] at nonneg ⊢
    rw [Bucket.remaining,whole_eq_floor _ nonneg]
  next absent => rw [level_of_none limiter client absent,Nat.floor_natCast]

/-- A call moves no clock: it takes a token from its own client if it is granted, and that
is all. -/
theorem level_call (limiter : Limiter Rat) (distinct : limiter.Distinct) (client : Client) (event : Event)
    (call : event.client?.isSome) :
    (limiter.step event).level client = limiter.level client - if limiter.grants client event then 1 else 0 := by
  cases event with
  | allow caller =>
    by_cases own : caller = client
    · subst caller
      simpa [grants] using level_allow limiter distinct client
    · have unseen : Agree client (limiter.step (.allow caller)) limiter :=
        Agree.step_other ⟨rfl,rfl,rfl,rfl⟩ distinct (.allow caller) (by simp [Event.concerns,Event.client?,own])
      simp [unseen.level,grants,own]
  | standing caller => simp [step,grants]
  | advance ns => simp [Event.client?] at call
  | tick => simp [Event.client?] at call
  | stop => simp [Event.client?] at call

/-- Of the next calls at one moment, as many of a client's are granted as it has whole tokens,
and then none. -/
theorem verdicts_eq (limiter : Limiter Rat) (distinct : limiter.Distinct) (client : Client) (events : List Event)
    (calls : ∀ event ∈ events, event.client?.isSome) :
    limiter.verdicts client events =
      List.replicate (min ⌊limiter.level client⌋₊ (events.count (.allow client))) true ++
        List.replicate (events.count (.allow client) - ⌊limiter.level client⌋₊) false := by
  induction events generalizing limiter with
  | nil => simp [verdicts]
  | cons event events ih =>
    obtain ⟨call,others⟩ := List.forall_mem_cons.mp calls
    have rest := ih (limiter.step event) (distinct_step limiter distinct event) others
    rw [level_call limiter distinct client event call] at rest
    by_cases asks : event = .allow client
    · subst event
      rw [verdicts,if_pos rfl,rest,List.count_cons_self,allow_eq]
      by_cases enough : 1 ≤ limiter.level client
      · have granted : limiter.grants client (.allow client) = true := by simp [grants,allow_eq,enough]
        obtain ⟨left,whole⟩ := Nat.exists_eq_succ_of_ne_zero (Nat.floor_pos.mpr enough).ne'
        simp [granted,enough,Nat.floor_sub_one,whole,List.replicate_succ]
      · have refused : limiter.grants client (.allow client) = false := by simp [grants,allow_eq,enough]
        have nothing : ⌊limiter.level client⌋₊ = 0 := Nat.floor_eq_zero.mpr (not_le.mp enough)
        simp [refused,enough,nothing,List.replicate_succ]
    · have silent : limiter.grants client event = false := by simp [grants,asks]
      rw [verdicts,if_neg asks,rest,List.count_cons_of_ne asks,silent]
      simp

/-- Right after a client has asked it has less than a burst left, and nothing if it was refused. -/
theorem Sound.level_asked {limiter : Limiter Rat} (sound : limiter.Sound) (client : Client) :
    ⌊(limiter.allow client).2.level client⌋₊ < limiter.settings.burst ∧
      ((limiter.allow client).1 = false → ⌊(limiter.allow client).2.level client⌋₊ = 0) := by
  have left : (limiter.allow client).2.level client = _ := level_allow limiter sound.distinct client
  have most := sound.level_le client
  rw [left,allow_eq]
  by_cases enough : 1 ≤ limiter.level client
  · have less : limiter.level client - 1 < limiter.settings.burst := by linarith
    simpa [enough] using (Nat.floor_lt (sub_nonneg.mpr enough)).mpr less
  · have nothing : ⌊limiter.level client⌋₊ = 0 := Nat.floor_eq_zero.mpr (not_le.mp enough)
    simpa [enough,nothing] using limiter.settings.burst_pos

end Limiter
end SqlTidy
