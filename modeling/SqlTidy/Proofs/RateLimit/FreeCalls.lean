import SqlTidy.Proofs.RateLimit.BucketRun

/-! Calls that cost nothing. Asking what remains leaves a bucket as it is. A refused request
brings it up to date, which no later call can tell: the bucket would have held the same
without it. So a run goes on as before if such calls are left out. -/
namespace SqlTidy.Bucket

inductive Outcome where
  | allowed (granted : Bool)
  | remaining (count : Int)
deriving Repr, DecidableEq

section Record

variable {α : Type} [Tokens α]

def outcome (bucket : Bucket α) (timed : TimedCall) : Outcome :=
  match timed.call with
  | .allow => .allowed (bucket.allow timed.time).1
  | .remaining => .remaining (bucket.remaining timed.time)

/-- The calls of a run with their outcomes. -/
def record (bucket : Bucket α) : List TimedCall → List (TimedCall × Outcome)
  | [] => []
  | timed :: calls => (timed,bucket.outcome timed) :: (bucket.step timed).record calls

/-- The entries of requests that were let through. -/
def granted (entries : List (TimedCall × Outcome)) : List (TimedCall × Outcome) :=
  entries.filter (·.2 == .allowed true)

theorem outcome_eq_allowed (bucket : Bucket α) (timed : TimedCall) :
    bucket.outcome timed = .allowed true ↔ bucket.grants timed = true := by
  unfold outcome grants
  cases timed.call <;> simp

theorem granted_of_cons {entry : TimedCall × Outcome} {kept rest : List (TimedCall × Outcome)}
    (same : granted (entry :: kept) = granted (entry :: rest)) : granted kept = granted rest := by
  simp only [granted,List.filter_cons] at same ⊢
  split at same
  next => exact (List.cons.inj same).2
  next => exact same

theorem refused_of_granted {timed : TimedCall} {outcome : Outcome} {kept rest : List (TimedCall × Outcome)}
    (deleted : kept.Sublist rest) (same : granted kept = granted ((timed,outcome) :: rest)) :
    outcome ≠ .allowed true ∧ granted kept = granted rest := by
  by_cases grant : outcome = .allowed true
  · -- A grant that is missing among those left would make them too few.
    have fewer := (deleted.filter (·.2 == Outcome.allowed true)).length_le
    have more := congrArg List.length same
    simp only [granted,grant,beq_self_eq_true,List.filter_cons_of_pos,List.length_cons] at more
    omega
  · refine ⟨grant,?_⟩
    simpa [granted,grant] using same

end Record

variable {left right bucket : Bucket Rat} {now : Nat}

/-- Two buckets that no call from some time on can tell apart. -/
structure Alike (now : Nat) (left right : Bucket Rat) : Prop where
  capacity : left.capacity = right.capacity
  rate : left.rate = right.rate
  level : ∀ time, now ≤ time → left.level time = right.level time

theorem alike_self (now : Nat) (bucket : Bucket Rat) : Alike now bucket bucket := ⟨rfl,rfl,fun _ _ => rfl⟩

namespace Alike

theorem trans {third : Bucket Rat} (first : Alike now left right) (second : Alike now right third) :
    Alike now left third :=
  ⟨first.capacity.trans second.capacity,first.rate.trans second.rate,
    fun time later => (first.level time later).trans (second.level time later)⟩

theorem later (alike : Alike now left right) (time : Nat) (later : now ≤ time) : Alike time left right :=
  { alike with level := fun moment ahead => alike.level moment (later.trans ahead) }

theorem allow (alike : Alike now left right) (time : Nat) (later : now ≤ time) :
    left.allow time = right.allow time :=
  allow_congr left right time alike.capacity alike.rate (alike.level time later)

theorem outcome (alike : Alike now left right) (timed : TimedCall) (later : now ≤ timed.time) :
    left.outcome timed = right.outcome timed := by
  unfold Bucket.outcome remaining
  rw [alike.allow timed.time later,alike.level timed.time later]

theorem step (alike : Alike now left right) (timed : TimedCall) (later : now ≤ timed.time) :
    Alike timed.time (left.step timed) (right.step timed) := by
  unfold Bucket.step
  split
  next =>
    rw [alike.allow timed.time later]
    exact alike_self _ _
  next => exact alike.later timed.time later

end Alike

/-- A call that is not granted leaves no trace: what it writes into the bucket is what the
bucket holds at that time, and refills add up. -/
theorem Sound.alike_step (sound : bucket.Sound now) (timed : TimedCall) (later : now ≤ timed.time)
    (refused : bucket.grants timed = false) : Alike timed.time (bucket.step timed) bucket := by
  obtain ⟨capacity,rate⟩ := bucket.step_fixed timed
  refine ⟨capacity,rate,fun time ahead => ?_⟩
  obtain ⟨ns,rfl⟩ := Nat.exists_eq_add_of_le ahead
  have same : (bucket.step timed).level timed.time = bucket.level timed.time := by simp [level_step,refused]
  rw [(sound.step timed later).level_add ns,(sound.reach timed.time later).level_add ns,capacity,rate,same]

theorem Alike.record (alike : Alike now left right) (sound : left.Sound now) (calls : List TimedCall)
    (ordered : Ordered now calls) (kept : List (TimedCall × Outcome)) (deleted : kept.Sublist (left.record calls))
    (grants : granted kept = granted (left.record calls)) : right.record (kept.map Prod.fst) = kept := by
  -- The left bucket takes every call, the right one only those that are kept.
  induction calls generalizing now left right kept with
  | nil =>
    obtain rfl := List.eq_nil_of_sublist_nil deleted
    rfl
  | cons timed calls ih =>
    obtain ⟨later,rest⟩ := (ordered_cons _ _ _).mp ordered
    have next := sound.step timed later
    cases deleted with
    | cons _ deleted =>
      obtain ⟨free,same⟩ := refused_of_granted deleted grants
      have refused : left.grants timed = false := by simpa [outcome_eq_allowed] using free
      have still := (sound.alike_step timed later refused).trans (alike.later timed.time later)
      exact ih still next rest kept deleted same
    | @cons_cons kept _ _ deleted =>
      have same := ih (alike.step timed later) next rest kept deleted (granted_of_cons grants)
      rw [List.map_cons,Bucket.record,← alike.outcome timed later,same]

/-- From the record of a run under a clock that never goes back delete what you like, only no
request that was let through: the calls that are left have the outcomes they had. -/
theorem refused_calls_free (capacity rate : Rat) (room : 0 ≤ capacity) (steady : 0 ≤ rate) (made : Nat)
    (calls : List TimedCall) (ordered : Ordered made calls) (kept : List (TimedCall × Outcome))
    (deleted : kept.Sublist ((full capacity rate made).record calls))
    (grants : granted kept = granted ((full capacity rate made).record calls)) :
    (full capacity rate made).record (kept.map Prod.fst) = kept :=
  (alike_self made _).record (full_sound capacity rate made room steady) calls ordered kept deleted grants

/-- With half a token a second the request after one second is refused; without it, and without
the question after it, the next one is let through at the same time. -/
theorem refused_calls_free_half :
    let calls : List TimedCall := [⟨0,.allow⟩,⟨1000000000,.allow⟩,⟨1500000000,.remaining⟩,⟨2000000000,.allow⟩,
      ⟨2000000000,.allow⟩,⟨3000000000,.remaining⟩]
    let kept : List (TimedCall × Outcome) := [(⟨0,.allow⟩,.allowed true),(⟨2000000000,.allow⟩,.allowed true),
      (⟨2000000000,.allow⟩,.allowed false),(⟨3000000000,.remaining⟩,.remaining 0)]
    let bucket : Bucket Rat := full 1 (1 / 2) 0
    (0 ≤ (1 : Rat) ∧ 0 ≤ (1 / 2 : Rat) ∧ Ordered 0 calls ∧ kept.Sublist (bucket.record calls) ∧
      granted kept = granted (bucket.record calls)) ∧ bucket.record (kept.map Prod.fst) = kept := by
  intro calls kept bucket
  have ordered : Ordered 0 calls := by simp [calls,Ordered]
  have deleted : kept.Sublist (bucket.record calls) := by decide +kernel
  have grants : granted kept = granted (bucket.record calls) := by decide +kernel
  refine ⟨⟨by norm_num,by norm_num,ordered,deleted,grants⟩,?_⟩
  exact refused_calls_free 1 (1 / 2) (by norm_num) (by norm_num) 0 calls ordered kept deleted grants

end SqlTidy.Bucket
