import SqlTidy.Proofs.Cache.Transparency
import Mathlib.Data.List.Induction
import Mathlib.Data.List.Nodup

/-! What a cache remembers. After any run it holds the most recent distinct calls, as many
as it has room for, the latest first. A call is found exactly if it was made before and
fewer other calls than the cache has room for were made since. -/
namespace SqlTidy

def Call.entry (call : Call) : Entry := ⟨call.key,call.result⟩

/-- The distinct calls of a run, the latest first. -/
def recent (calls : List Call) : List Call := calls.reverse.eraseDups

private theorem eraseDups_filter (keep : Call → Bool) (calls : List Call) :
    (calls.filter keep).eraseDups = calls.eraseDups.filter keep := by
  -- Erasing duplicates goes on with a shorter list that is not the tail.
  induction size : calls.length using Nat.strongRecOn generalizing calls with
  | ind size ih =>
    cases calls with
    | nil => rfl
    | cons call calls =>
      subst size
      have shorter (drop : Call → Bool) : (calls.filter drop).length < (call :: calls).length :=
        Nat.lt_succ_of_le (List.length_filter_le _ _)
      have rest := ih _ (shorter fun other => !other == call) (calls.filter fun other => !other == call) rfl
      rw [List.eraseDups_cons,List.filter_cons,List.filter_cons,← rest]
      cases kept : keep call with
      | true =>
        simp only [if_true]
        rw [List.eraseDups_cons,List.filter_filter,List.filter_filter]
        simp only [Bool.and_comm]
      | false =>
        have absorbed : ((calls.filter fun other => !other == call).filter keep) = calls.filter keep := by
          rw [List.filter_filter]
          apply List.filter_congr
          intro other _
          by_cases same : other = call
          · simp [same,kept]
          · simp [same]
        simp only [Bool.false_eq_true,if_false,absorbed]

theorem recent_concat (calls : List Call) (call : Call) :
    recent (calls ++ [call]) = call :: (recent calls).filter (· != call) := by
  rw [recent,List.reverse_append,List.reverse_singleton,List.singleton_append,List.eraseDups_cons,eraseDups_filter]
  rfl

theorem recent_nodup (calls : List Call) : (recent calls).Nodup := by
  induction calls using List.reverseRecOn with
  | nil => exact List.nodup_nil
  | append_singleton calls call ih =>
    rw [recent_concat]
    refine List.nodup_cons.mpr ⟨?_,ih.filter _⟩
    simp

theorem mem_recent (calls : List Call) (call : Call) : call ∈ recent calls ↔ call ∈ calls := by
  rw [recent,List.mem_eraseDups,List.mem_reverse]

/-- What was called since stands before a call, what was called earlier behind it. -/
theorem recent_split (earlier since : List Call) (call : Call) (last : call ∉ since) :
    ∃ older, recent (earlier ++ call :: since) = recent since ++ call :: older := by
  have turned : (earlier ++ call :: since).reverse = since.reverse ++ call :: earlier.reverse := by simp
  have kept : (call :: earlier.reverse).removeAll since.reverse =
      call :: earlier.reverse.removeAll since.reverse := by
    simp [List.cons_removeAll,last]
  rw [recent,turned,List.eraseDups_append,kept,List.eraseDups_cons]
  exact ⟨_,rfl⟩

private theorem filter_take_of_mem (row : List Call) (distinct : row.Nodup) (call : Call) (count : Nat)
    (member : call ∈ row.take (count + 1)) :
    (row.take (count + 1)).filter (· != call) = (row.filter (· != call)).take count := by
  induction row generalizing count with
  | nil => simp at member
  | cons first row ih =>
    obtain ⟨fresh,rest⟩ := List.nodup_cons.mp distinct
    by_cases same : first = call
    · subst first
      have others : row.filter (· != call) = row := by
        apply List.filter_eq_self.mpr
        intro other inside
        simpa using ne_of_mem_of_not_mem inside fresh
      have taken : (row.take count).filter (· != call) = row.take count := by
        apply List.filter_eq_self.mpr
        intro other inside
        simpa using ne_of_mem_of_not_mem (List.mem_of_mem_take inside) fresh
      simp [others,taken]
    · cases count with
      | zero => simp_all
      | succ count =>
        have behind : call ∈ row.take (count + 1) := by simpa [Ne.symm same] using member
        simpa [same] using ih rest count behind

private theorem take_eq_filter_of_not_mem (row : List Call) (call : Call) (count : Nat)
    (absent : call ∉ row.take (count + 1)) : row.take count = (row.filter (· != call)).take count := by
  induction row generalizing count with
  | nil => rfl
  | cons first row ih =>
    have other : first ≠ call := by
      rintro rfl
      simp at absent
    cases count with
    | zero => rfl
    | succ count =>
      have behind : call ∉ row.take (count + 1) := by
        intro member
        exact absent (List.mem_cons_of_mem first member)
      simpa [other] using ih count behind

namespace Cache

private theorem find?_entries (held : List Call) (call : Call) :
    (held.map Call.entry).find? (·.key == call.key) = if call ∈ held then some call.entry else none := by
  induction held with
  | nil => rfl
  | cons first held ih =>
    by_cases same : first = call
    · subst first
      simp [Call.entry]
    · have keys : first.key ≠ call.key := fun equal => same (Call.key_injective equal)
      have test : (first.entry.key == call.key) = false := beq_eq_false_iff_ne.mpr keys
      simp [test,ih,Ne.symm same]

private theorem filter_entries (held : List Call) (call : Call) :
    (held.map Call.entry).filter (·.key != call.entry.key) = (held.filter (· != call)).map Call.entry := by
  rw [List.filter_map]
  congr 1
  apply List.filter_congr
  intro other _
  have keys : other.key = call.key ↔ other = call := Call.key_injective.eq_iff
  simp [Call.entry,bne,keys]

def after (cache : Cache) (calls : List Call) : Cache := calls.foldl (fun cache call => (cache.call call).2) cache

theorem after_concat (cache : Cache) (calls : List Call) (call : Call) :
    cache.after (calls ++ [call]) = ((cache.after calls).call call).2 := by
  rw [after,List.foldl_append]
  rfl

/-- A cache with room for so many results that was new before a run of calls. -/
structure Remembers (room : Nat) (cache : Cache) (calls : List Call) : Prop where
  some : room ≠ 0
  capacity : cache.capacity = room
  entries : cache.entries = ((recent calls).take room).map Call.entry
  counts : cache.hits + cache.misses = calls.length

namespace Remembers

variable {room : Nat} {cache : Cache} {calls : List Call}

theorem fresh (some : room ≠ 0) : Remembers room { capacity := room } [] := ⟨some,rfl,by simp [recent],rfl⟩

theorem find? (remembers : Remembers room cache calls) (call : Call) :
    cache.find? call.key = if call ∈ (recent calls).take room then .some call.entry else none := by
  rw [Cache.find?,remembers.entries]
  exact find?_entries _ call

theorem promote (remembers : Remembers room cache calls) (call : Call) (held : call ∈ (recent calls).take room) :
    Remembers room (cache.promote call.entry) (calls ++ [call]) where
  some := remembers.some
  capacity := remembers.capacity
  entries := by
    obtain ⟨count,rfl⟩ := Nat.exists_eq_succ_of_ne_zero remembers.some
    simp only [Cache.promote,remembers.entries,filter_entries,recent_concat]
    rw [filter_take_of_mem _ (recent_nodup calls) call count held]
    rfl
  counts := by
    have before := remembers.counts
    simp only [Cache.promote,List.length_append,List.length_singleton]
    omega

theorem insert (remembers : Remembers room cache calls) (call : Call) (absent : call ∉ (recent calls).take room) :
    Remembers room (cache.insert call.entry) (calls ++ [call]) where
  some := remembers.some
  capacity := remembers.capacity
  entries := by
    obtain ⟨count,rfl⟩ := Nat.exists_eq_succ_of_ne_zero remembers.some
    have shorter : ((recent calls).take (count + 1)).take count = (recent calls).take count := by simp [List.take_take]
    simp only [Cache.insert,remembers.entries,remembers.capacity,recent_concat,List.take_succ_cons,List.map_cons]
    rw [← List.map_take,shorter,take_eq_filter_of_not_mem _ call count absent]
  counts := by
    have before := remembers.counts
    simp only [Cache.insert,List.length_append,List.length_singleton]
    omega

theorem call_eq (remembers : Remembers room cache calls) (call : Call) :
    (cache.call call).2 =
      if call ∈ (recent calls).take room then cache.promote call.entry else cache.insert call.entry := by
  have found := remembers.find? call
  rcases cache.call_cases call with ⟨empty,_⟩ | ⟨_,entry,hit,done⟩ | ⟨_,miss,done⟩
  · exact absurd (remembers.capacity.symm.trans empty) remembers.some
  · rw [hit] at found
    split at found
    next held => rw [done,if_pos held,Option.some.inj found]
    next => simp at found
  · rw [miss] at found
    split at found
    next => simp at found
    next absent => rw [done,if_neg absent]; rfl

theorem call (remembers : Remembers room cache calls) (call : Call) :
    Remembers room (cache.call call).2 (calls ++ [call]) := by
  rw [remembers.call_eq call]
  split
  next held => exact remembers.promote call held
  next absent => exact remembers.insert call absent

theorem size_eq (remembers : Remembers room cache calls) : cache.size = min room (recent calls).length := by
  rw [Cache.size,remembers.entries,List.length_map,List.length_take]

end Remembers

theorem after_remembers (room : Nat) (some : room ≠ 0) (calls : List Call) :
    Remembers room (({ capacity := room } : Cache).after calls) calls := by
  induction calls using List.reverseRecOn with
  | nil => exact Remembers.fresh some
  | append_singleton calls call ih =>
    rw [after_concat]
    exact ih.call call

end Cache

/-- A call was made before, and fewer than `room` others were made since. -/
def MadeWithin (room : Nat) (calls : List Call) (call : Call) : Prop :=
  ∃ earlier since, calls = earlier ++ call :: since ∧ call ∉ since ∧ (recent since).length < room

private theorem mem_take_append (first second : List Call) (call : Call) (room : Nat) (absent : call ∉ first) :
    call ∈ (first ++ call :: second).take room ↔ first.length < room := by
  rw [List.take_append,List.mem_append]
  constructor
  · rintro (inside | inside)
    · exact absurd (List.mem_of_mem_take inside) absent
    · by_contra short
      simp [Nat.sub_eq_zero_of_le (Nat.not_lt.mp short)] at inside
  · intro fits
    obtain ⟨gap,rfl⟩ := Nat.exists_eq_add_of_lt fits
    right
    rw [Nat.add_assoc,Nat.add_sub_cancel_left]
    exact List.mem_cons_self

theorem mem_take_recent (room : Nat) (calls : List Call) (call : Call) :
    call ∈ (recent calls).take room ↔ MadeWithin room calls call := by
  constructor
  · intro held
    have made : call ∈ calls := (mem_recent calls call).mp (List.mem_of_mem_take held)
    obtain ⟨turned,before,split,last⟩ := List.eq_append_cons_of_mem (List.mem_reverse.mpr made)
    have whole : calls = before.reverse ++ call :: turned.reverse := by
      rw [← List.reverse_reverse calls,split]
      simp
    have since : call ∉ turned.reverse := by simpa using last
    refine ⟨before.reverse,turned.reverse,whole,since,?_⟩
    obtain ⟨older,ordered⟩ := recent_split before.reverse turned.reverse call since
    rw [whole,ordered] at held
    exact (mem_take_append _ _ _ _ (fun member => since ((mem_recent _ call).mp member))).mp held
  · rintro ⟨earlier,since,rfl,last,few⟩
    obtain ⟨older,split⟩ := recent_split earlier since call last
    rw [split,mem_take_append _ _ _ _ (fun member => last ((mem_recent since call).mp member))]
    exact few

namespace Cache

theorem Remembers.counted {room : Nat} {cache : Cache} {calls : List Call} (remembers : Remembers room cache calls)
    (call : Call) :
    ((cache.call call).2.hits = cache.hits + 1 ↔ MadeWithin room calls call) ∧
      ((cache.call call).2.misses = cache.misses + 1 ↔ ¬MadeWithin room calls call) := by
  rw [remembers.call_eq call]
  by_cases held : call ∈ (recent calls).take room
  · have made := (mem_take_recent _ _ _).mp held
    simp [held,made,Cache.promote]
  · have forgotten : ¬MadeWithin room calls call := fun made => held ((mem_take_recent _ _ _).mpr made)
    simp [held,forgotten,Cache.insert]

/-- After any run a cache holds the latest distinct calls of the run in order, as many as
there is room for. A call counts as a hit exactly if it was made before and fewer others
than there is room for were made since, and each call counts once. -/
theorem holds_recent (size : Nat) (some : 1 ≤ size) :
    ∃ cache, ofSize size = .ok cache ∧ ∀ calls,
      (cache.after calls).entries = ((recent calls).take size).map Call.entry ∧
      (cache.after calls).size = min size (recent calls).length ∧
      (cache.after calls).hits + (cache.after calls).misses = calls.length ∧
      ∀ call,
        (((cache.after calls).call call).2.hits = (cache.after calls).hits + 1 ↔ MadeWithin size calls call) ∧
        (((cache.after calls).call call).2.misses = (cache.after calls).misses + 1 ↔ ¬MadeWithin size calls call) := by
  refine ⟨{ capacity := size },by simp [ofSize],fun calls => ?_⟩
  have remembers := after_remembers size (Nat.one_le_iff_ne_zero.mp some) calls
  exact ⟨remembers.entries,remembers.size_eq,remembers.counts,remembers.counted⟩

/-- Of three texts, asked for in the order a b a c, room for two keeps a and c: a is found
again and b is not. -/
theorem holds_recent_two :
    let a : Call := ⟨{},utf8 "a"⟩
    let b : Call := ⟨{},utf8 "b"⟩
    let c : Call := ⟨{},utf8 "c"⟩
    1 ≤ 2 ∧ ∃ cache, ofSize 2 = .ok cache ∧
      (cache.after [a,b,a,c]).entries.map Entry.key = [c.key,a.key] ∧
      ((cache.after [a,b,a,c]).call a).2.hits = (cache.after [a,b,a,c]).hits + 1 ∧
      ((cache.after [a,b,a,c]).call b).2.misses = (cache.after [a,b,a,c]).misses + 1 := by
  intro a b c
  obtain ⟨cache,made,held⟩ := holds_recent 2 (by decide)
  obtain ⟨entries,_,_,counted⟩ := held [a,b,a,c]
  have latest : recent [a,b,a,c] = [c,a,b] := by decide +kernel
  refine ⟨by decide,cache,made,?_,?_,?_⟩
  · rw [entries,latest]
    rfl
  · exact (counted a).1.mpr ⟨[a,b],[c],rfl,by decide +kernel,by decide +kernel⟩
  · refine (counted b).2.mpr fun within => ?_
    have among := (mem_take_recent 2 [a,b,a,c] b).mpr within
    rw [latest] at among
    revert among
    decide +kernel

end Cache
end SqlTidy
