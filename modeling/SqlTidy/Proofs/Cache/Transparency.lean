import SqlTidy.Proofs.Cache.Calls

/-! The cache is transparent. Every entry holds the result of the one call that has its
key; no call breaks this, so that whatever was found, missed or dropped before, a call
gets the result it would get without a cache. -/
namespace SqlTidy.Cache

/-- Each entry is the record of some call. -/
def Faithful (cache : Cache) : Prop :=
  ∀ entry ∈ cache.entries, ∃ call : Call, entry = ⟨call.key,call.result⟩

theorem faithful_empty (capacity : Nat) : Faithful { capacity } := by
  intro entry member
  simp at member

theorem Faithful.found {cache : Cache} (faithful : cache.Faithful) (call : Call) (entry : Entry)
    (found : cache.find? call.key = some entry) : entry.result = call.result := by
  obtain ⟨member,key⟩ := cache.find?_some call.key entry found
  obtain ⟨origin,rfl⟩ := faithful entry member
  rw [Call.key_injective key]

theorem Faithful.promote {cache : Cache} (faithful : cache.Faithful) (entry : Entry)
    (member : entry ∈ cache.entries) : (cache.promote entry).Faithful := by
  intro other inside
  rcases List.mem_cons.mp inside with rfl | rest
  · exact faithful other member
  · exact faithful other (List.mem_filter.mp rest).1

theorem Faithful.insert {cache : Cache} (faithful : cache.Faithful) (call : Call) :
    (cache.insert ⟨call.key,call.result⟩).Faithful := by
  intro other inside
  rcases List.mem_cons.mp (List.mem_of_mem_take inside) with rfl | rest
  · exact ⟨call,rfl⟩
  · exact faithful other rest

theorem Faithful.call {cache : Cache} (faithful : cache.Faithful) (call : Call) :
    (cache.call call).1 = call.result ∧ (cache.call call).2.Faithful := by
  rcases cache.call_cases call with ⟨_,done⟩ | ⟨_,entry,found,done⟩ | ⟨_,_,done⟩
  · rw [done]
    exact ⟨rfl,faithful⟩
  · rw [done]
    exact ⟨faithful.found call entry found,faithful.promote entry (cache.find?_some _ _ found).1⟩
  · rw [done]
    exact ⟨rfl,faithful.insert call⟩

theorem Faithful.results {cache : Cache} (faithful : cache.Faithful) (calls : List Call) :
    cache.results calls = calls.map Call.result := by
  induction calls generalizing cache with
  | nil => rfl
  | cons call calls ih =>
    obtain ⟨result,kept⟩ := faithful.call call
    rw [Cache.results,result,ih kept,List.map_cons]

/-- With no cache and with a cache of any size, every call of every run gets the result
that its text and options have by themselves. The keys that entries are filed under
tell any two calls apart. -/
theorem results_eq_sanitize :
    Function.Injective Call.key ∧
    (∀ calls, disabled.results calls = calls.map fun call => SqlTidy.sanitize call.options call.text) ∧
    ∀ size : Nat, ∃ cache, ofSize size = .ok cache ∧
      ∀ calls, cache.results calls = calls.map fun call => SqlTidy.sanitize call.options call.text := by
  refine ⟨Call.key_injective,(faithful_empty 0).results,fun size => ?_⟩
  refine ⟨{ capacity := size },?_,(faithful_empty size).results⟩
  simp [ofSize]

end SqlTidy.Cache
