import SqlTidy.Sql.Cache
import Mathlib.Logic.Function.Basic

/-! Calls of a cache. A call is known by its key alone, one call finds its entry,
misses it or meets a cache without capacity, and a run is one call after another. -/
namespace SqlTidy

structure Call where
  options : Options
  text : Bytes
deriving Repr, DecidableEq

namespace Call

def key (call : Call) : Bytes := call.options.key call.text

def result (call : Call) : Result := SqlTidy.sanitize call.options call.text

end Call

private theorem flag_true : Options.flag true = [0x74,0x72,0x75,0x65,0x7C] := by decide

private theorem flag_false : Options.flag false = [0x66,0x61,0x6C,0x73,0x65,0x7C] := by decide

theorem flag_append_inj (first second : Bool) (left right : Bytes)
    (same : Options.flag first ++ left = Options.flag second ++ right) :
    first = second ∧ left = right := by
  -- The first byte decides: no spelling of an option begins another one.
  cases first <;> cases second <;> simp_all [flag_true,flag_false]

/-- Calls with one key have the same options and the same text, whatever the text begins with. -/
theorem Call.key_injective : Function.Injective Call.key := by
  rintro ⟨first,left⟩ ⟨second,right⟩ same
  simp only [Call.key,Options.key,List.append_assoc] at same
  obtain ⟨extract,same⟩ := flag_append_inj _ _ _ _ same
  obtain ⟨removeLimit,same⟩ := flag_append_inj _ _ _ _ same
  obtain ⟨addQuotes,text⟩ := flag_append_inj _ _ _ _ same
  cases first; cases second
  simp_all

namespace Cache

def call (cache : Cache) (call : Call) : Result × Cache := cache.sanitize call.options call.text

def results (cache : Cache) : List Call → List Result
  | [] => []
  | call :: calls => (cache.call call).1 :: (cache.call call).2.results calls

/-- All that a call can do. -/
theorem call_cases (cache : Cache) (call : Call) :
    (cache.capacity = 0 ∧ cache.call call = (call.result,cache)) ∨
    (cache.capacity ≠ 0 ∧ ∃ entry, cache.find? call.key = some entry ∧
      cache.call call = (entry.result,cache.promote entry)) ∨
    (cache.capacity ≠ 0 ∧ cache.find? call.key = none ∧
      cache.call call = (call.result,cache.insert ⟨call.key,call.result⟩)) := by
  by_cases empty : cache.capacity = 0
  · exact .inl ⟨empty,by simp [Cache.call,sanitize,empty,Call.result]⟩
  · right
    cases found : cache.find? call.key with
    | some entry =>
      refine .inl ⟨empty,entry,rfl,?_⟩
      simp only [Call.key] at found
      simp [Cache.call,sanitize,empty,found]
    | none =>
      refine .inr ⟨empty,rfl,?_⟩
      simp only [Call.key] at found
      simp [Cache.call,sanitize,empty,found,Call.key,Call.result]

theorem find?_some (cache : Cache) (key : Bytes) (entry : Entry)
    (found : cache.find? key = some entry) : entry ∈ cache.entries ∧ entry.key = key := by
  refine ⟨List.mem_of_find?_eq_some found,?_⟩
  simpa using List.find?_some found

end Cache
end SqlTidy
