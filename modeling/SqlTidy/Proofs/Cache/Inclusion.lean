import SqlTidy.Proofs.Cache.Recency

/-! Room pays. Caches of two sizes that see the same calls drop entries at different times,
yet the smaller one always holds the first entries of the larger one. What it finds the larger
one finds too, and so its hits are never more. -/
namespace SqlTidy

theorem MadeWithin.mono {small large : Nat} {calls : List Call} {call : Call} (made : MadeWithin small calls call)
    (ordered : small ≤ large) : MadeWithin large calls call := by
  obtain ⟨earlier,since,split,last,few⟩ := made
  exact ⟨earlier,since,split,last,Nat.lt_of_lt_of_le few ordered⟩

namespace Cache

theorem after_empty (cache : Cache) (empty : cache.capacity = 0) (calls : List Call) : cache.after calls = cache := by
  induction calls with
  | nil => rfl
  | cons call calls ih =>
    have idle : (cache.call call).2 = cache := by
      rcases cache.call_cases call with ⟨_,done⟩ | ⟨some,_⟩ | ⟨some,_⟩
      · rw [done]
      · exact absurd empty some
      · exact absurd empty some
    rw [after,List.foldl_cons,idle]
    exact ih

theorem after_entries (room : Nat) (calls : List Call) :
    (({ capacity := room } : Cache).after calls).entries = ((recent calls).take room).map Call.entry := by
  by_cases empty : room = 0
  · rw [after_empty _ empty,empty]
    rfl
  · exact (after_remembers room empty calls).entries

theorem after_hits (room : Nat) (calls : List Call) (call : Call) :
    ((({ capacity := room } : Cache).after calls).call call).2.hits =
        (({ capacity := room } : Cache).after calls).hits + 1 ↔ MadeWithin room calls call := by
  by_cases empty : room = 0
  · subst room
    have unchanged := after_empty { capacity := 0 } rfl
    have never : ¬MadeWithin 0 calls call := by
      rintro ⟨_,since,_,_,few⟩
      exact Nat.not_lt_zero _ few
    rw [← after_concat,unchanged,unchanged]
    simp [never]
  · exact ((after_remembers room empty calls).counted call).1

theorem hit_mono (small large : Nat) (ordered : small ≤ large) (calls : List Call) (call : Call)
    (hit : ((({ capacity := small } : Cache).after calls).call call).2.hits =
      (({ capacity := small } : Cache).after calls).hits + 1) :
    ((({ capacity := large } : Cache).after calls).call call).2.hits =
      (({ capacity := large } : Cache).after calls).hits + 1 := by
  have made := (after_hits small calls call).mp hit
  exact (after_hits large calls call).mpr (made.mono ordered)

theorem call_hits (cache : Cache) (call : Call) :
    (cache.call call).2.hits = cache.hits ∨ (cache.call call).2.hits = cache.hits + 1 := by
  rcases cache.call_cases call with ⟨_,done⟩ | ⟨_,_,_,done⟩ | ⟨_,_,done⟩
  · exact .inl (by rw [done])
  · exact .inr (by rw [done]; rfl)
  · exact .inl (by rw [done]; rfl)

theorem hits_le (small large : Nat) (ordered : small ≤ large) (calls : List Call) :
    (({ capacity := small } : Cache).after calls).hits ≤ (({ capacity := large } : Cache).after calls).hits := by
  induction calls using List.reverseRecOn with
  | nil => exact Nat.le_refl _
  | append_singleton calls call ih =>
    rw [after_concat,after_concat]
    rcases call_hits (({ capacity := small } : Cache).after calls) call with missed | hit
    · rcases call_hits (({ capacity := large } : Cache).after calls) call with same | more <;> omega
    · have also := hit_mono small large ordered calls call hit
      omega

/-- Whatever is called, a cache with more room holds at every time what one with less room
holds, finds every call that the other finds, and has counted no fewer hits. -/
theorem larger_hits_no_less (small large : Nat) (ordered : small ≤ large) :
    ∃ little big, ofSize small = .ok little ∧ ofSize large = .ok big ∧ ∀ calls,
      (little.after calls).entries <+: (big.after calls).entries ∧
      (∀ call, ((little.after calls).call call).2.hits = (little.after calls).hits + 1 →
        ((big.after calls).call call).2.hits = (big.after calls).hits + 1) ∧
      (little.after calls).hits ≤ (big.after calls).hits := by
  refine ⟨{ capacity := small },{ capacity := large },by simp [ofSize],by simp [ofSize],fun calls => ⟨?_,?_,?_⟩⟩
  · rw [after_entries,after_entries]
    exact (List.take_prefix_take_left ordered).map Call.entry
  · exact hit_mono small large ordered calls
  · exact hits_le small large ordered calls

/-- In the order a b c a, room for two has dropped the first text before it comes again and room
for three has not. -/
theorem larger_hits_no_less_three :
    let a : Call := ⟨{},utf8 "a"⟩
    let b : Call := ⟨{},utf8 "b"⟩
    let c : Call := ⟨{},utf8 "c"⟩
    2 ≤ 3 ∧ ∃ little big, ofSize 2 = .ok little ∧ ofSize 3 = .ok big ∧
      (little.after [a,b,c]).entries <+: (big.after [a,b,c]).entries ∧
      (little.after [a,b,c,a]).hits = 0 ∧ (big.after [a,b,c,a]).hits = 1 ∧
      (little.after [a,b,c,a]).hits ≤ (big.after [a,b,c,a]).hits := by
  intro a b c
  obtain ⟨little,big,first,second,held⟩ := larger_hits_no_less 2 3 (by decide)
  obtain rfl : { capacity := 2 } = little := by simpa [ofSize] using first
  obtain rfl : { capacity := 3 } = big := by simpa [ofSize] using second
  exact ⟨by decide,_,_,first,second,(held [a,b,c]).1,by decide +kernel,by decide +kernel,(held [a,b,c,a]).2.2⟩

end Cache
end SqlTidy
