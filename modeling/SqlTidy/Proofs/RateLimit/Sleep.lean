import SqlTidy.Proofs.RateLimit.Run

/-! Time asleep as a run. A sleep of the limiter is a sequence of advances and ticks, and
which ones is decided by the clock, the settings and the stop, never by the buckets. -/
namespace SqlTidy.Limiter

variable {α : Type}

theorem lt_nextTick (limiter : Limiter α) : limiter.now < limiter.nextTick := by
  have division := Nat.div_add_mod limiter.now limiter.settings.interval
  have remainder := Nat.mod_lt limiter.now limiter.settings.interval_pos
  rw [nextTick,Nat.add_mul,Nat.one_mul,Nat.mul_comm]
  omega

theorem div_add_ticksDue (limiter : Limiter α) (running : limiter.stopped = false) (ns : Nat) :
    limiter.now / limiter.settings.interval + limiter.ticksDue (limiter.now + ns) =
      (limiter.now + ns) / limiter.settings.interval := by
  have later : limiter.now / limiter.settings.interval ≤ (limiter.now + ns) / limiter.settings.interval :=
    Nat.div_le_div_right (Nat.le_add_right limiter.now ns)
  simp only [ticksDue,running,Bool.false_eq_true,if_false]
  omega

variable [Tokens α]

def ticks (interval : Nat) : (count now : Nat) → List Event
  | 0, _ => []
  | count + 1, now =>
    let next := (now / interval + 1) * interval
    .advance (next - now) :: .tick :: ticks interval count next

def passing (limiter : Limiter α) (ns : Nat) : List Event :=
  let wake := limiter.now + ns
  ticks limiter.settings.interval (limiter.ticksDue wake) limiter.now ++
    [.advance (wake - max limiter.now
      ((limiter.now / limiter.settings.interval + limiter.ticksDue wake) * limiter.settings.interval))]

theorem step_advance_nextTick (limiter : Limiter α) :
    limiter.step (.advance (limiter.nextTick - limiter.now)) = { limiter with now := limiter.nextTick } := by
  have later := lt_nextTick limiter
  have reached : limiter.now + (limiter.nextTick - limiter.now) = limiter.nextTick := by omega
  simp only [step,advance,reached]

theorem after_ticks_succ (limiter : Limiter α) (running : limiter.stopped = false) (count : Nat) :
    limiter.after (ticks limiter.settings.interval (count + 1) limiter.now) =
      ({ limiter with now := limiter.nextTick }.cleanup.2).after
        (ticks limiter.settings.interval count limiter.nextTick) := by
  change (((limiter.step (.advance (limiter.nextTick - limiter.now))).step .tick).after _) = _
  rw [step_advance_nextTick limiter,step]
  simp only [running,Bool.false_eq_true,if_false]
  rfl

theorem records_ticks_succ (limiter : Limiter α) (running : limiter.stopped = false) (count : Nat) :
    limiter.records (ticks limiter.settings.interval (count + 1) limiter.now) =
      { limiter with now := limiter.nextTick }.cleanup.1 ++
        ({ limiter with now := limiter.nextTick }.cleanup.2).records
          (ticks limiter.settings.interval count limiter.nextTick) := by
  change limiter.records (.advance (limiter.nextTick - limiter.now) :: .tick :: ticks _ count limiter.nextTick) = _
  rw [records,records,step_advance_nextTick limiter]
  simp [step,running]

theorem after_ticks_now (limiter : Limiter α) (running : limiter.stopped = false) (count : Nat) :
    (limiter.after (ticks limiter.settings.interval count limiter.now)).now =
      max limiter.now ((limiter.now / limiter.settings.interval + count) * limiter.settings.interval) := by
  induction count generalizing limiter with
  | zero =>
    have floor := Nat.div_mul_le_self limiter.now limiter.settings.interval
    exact (Nat.max_eq_left floor).symm
  | succ count ih =>
    have rest := ih { limiter with now := limiter.nextTick }.cleanup.2 running
    have later := lt_nextTick limiter
    have quotient : limiter.nextTick / limiter.settings.interval = limiter.now / limiter.settings.interval + 1 :=
      Nat.mul_div_cancel _ limiter.settings.interval_pos
    rw [after_ticks_succ limiter running]
    refine rest.trans ?_
    change max limiter.nextTick ((limiter.nextTick / limiter.settings.interval + count) * limiter.settings.interval) = _
    have far : limiter.nextTick ≤
        (limiter.now / limiter.settings.interval + (count + 1)) * limiter.settings.interval :=
      Nat.mul_le_mul_right _ (by omega)
    rw [quotient,Nat.add_assoc,Nat.add_comm 1 count,Nat.max_eq_right far,Nat.max_eq_right (by omega)]

theorem ticks_empty (limiter : Limiter α) (running : limiter.stopped = false) (empty : limiter.buckets = []) (count wake : Nat) :
    limiter.records (ticks limiter.settings.interval count limiter.now) = [] ∧
      { limiter.after (ticks limiter.settings.interval count limiter.now) with now := wake } =
        { limiter with now := wake } := by
  induction count generalizing limiter with
  | zero => exact ⟨rfl,rfl⟩
  | succ count ih =>
    rw [records_ticks_succ limiter running,after_ticks_succ limiter running,
      cleanup_empty { limiter with now := limiter.nextTick } empty]
    exact ih { limiter with now := limiter.nextTick } running empty

theorem runTicks_eq (limiter : Limiter α) (running : limiter.stopped = false) (count wake : Nat) :
    (runTicks count limiter).1 = limiter.records (ticks limiter.settings.interval count limiter.now) ∧
      { (runTicks count limiter).2 with now := wake } =
        { limiter.after (ticks limiter.settings.interval count limiter.now) with now := wake } := by
  induction count generalizing limiter with
  | zero => exact ⟨rfl,rfl⟩
  | succ count ih =>
    simp only [runTicks]
    split
    -- The limiter leaves out the ticks that would find no bucket.
    next empty =>
      obtain ⟨silent,same⟩ := ticks_empty limiter running (List.isEmpty_iff.mp empty) (count + 1) wake
      exact ⟨silent.symm,same.symm⟩
    next =>
      obtain ⟨more,last⟩ := ih { limiter with now := limiter.nextTick }.cleanup.2 running
      rw [records_ticks_succ limiter running,after_ticks_succ limiter running]
      exact ⟨congrArg (_ ++ ·) more,last⟩

/-- Sleeping is the run of the ticks due meanwhile and of the time that is left. -/
theorem sleep_eq (limiter : Limiter α) (ns : Nat) :
    limiter.sleep ns = (limiter.records (limiter.passing ns),limiter.after (limiter.passing ns)) := by
  have silent (reached : Limiter α) (rest : Nat) : reached.records [.advance rest] = [] := by simp [records]
  by_cases due : limiter.ticksDue (limiter.now + ns) = 0
  · have floor := Nat.div_mul_le_self limiter.now limiter.settings.interval
    simp only [sleep,passing,due,runTicks,ticks,silent,after,List.nil_append,List.foldl_cons,List.foldl_nil,step,advance,
      Nat.add_zero]
    congr 2
    omega
  · have running : limiter.stopped = false := by
      cases stopped : limiter.stopped with
      | false => rfl
      | true => simp [ticksDue,stopped] at due
    have reached := after_ticks_now limiter running (limiter.ticksDue (limiter.now + ns))
    obtain ⟨report,ran⟩ := runTicks_eq limiter running (limiter.ticksDue (limiter.now + ns)) (limiter.now + ns)
    have last := div_add_ticksDue limiter running ns
    have floor := Nat.div_mul_le_self (limiter.now + ns) limiter.settings.interval
    rw [after] at reached
    simp only [sleep,report,ran,passing,records_append,silent,List.append_nil,after,List.foldl_append,List.foldl_cons,
      List.foldl_nil,step,advance,reached,last]
    congr 2
    omega

theorem sleep_eq_after (limiter : Limiter α) (ns : Nat) :
    (limiter.sleep ns).2 = limiter.after (limiter.passing ns) := congrArg Prod.snd (sleep_eq limiter ns)

end SqlTidy.Limiter
