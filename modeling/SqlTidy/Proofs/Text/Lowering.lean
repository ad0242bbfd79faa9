import SqlTidy.Proofs.Text.Runs
import SqlTidy.Text.Blank
import SqlTidy.Text.LowerCase
import Mathlib.Data.List.Chain

/-! Lower case is reached in one step. What a letter of the table becomes is not in the table
again, and white space is neither in the table nor made by it. -/
namespace SqlTidy
open Utf8

/-- The white space code points, from the first to the last of each run. -/
def blankRanges : List (Nat × Nat) :=
  [(9,13),(0x20,0x20),(0x85,0x85),(0xA0,0xA0),(0x1680,0x1680),(0x2000,0x200A),(0x2028,0x2029),(0x202F,0x202F),
    (0x205F,0x205F),(0x3000,0x3000)]

theorem exists_range_of_isBlank (c : Char) (blank : isBlank c = true) :
    ∃ range ∈ blankRanges, range.1 ≤ c.toNat ∧ c.toNat ≤ range.2 := by
  simp only [isBlank,Bool.or_eq_true,Bool.and_eq_true,decide_eq_true_eq,beq_iff_eq] at blank
  simp only [blankRanges,List.mem_cons,List.not_mem_nil,or_false,exists_eq_or_imp,exists_eq_left]
  omega

namespace CaseRun

/-- The lower-case letters of a run reach from `low` to `high`. -/
def low (run : CaseRun) : Nat := Int.toNat (run.first + run.shift)

def high (run : CaseRun) : Nat := Int.toNat (run.last + run.shift)

/-- Whether there is no white space from one code point to another. -/
def isSolid (first last : Nat) : Bool := blankRanges.all fun range => Nat.blt last range.1 || Nat.blt range.2 first

/-- Whether the lower-case letters of a run are code points, and neither they nor the run hold white space. -/
def isSound (run : CaseRun) : Bool :=
  Nat.blt 0 run.low && (Nat.blt run.high 0xD800 || Nat.blt 0xDFFF run.low && Nat.blt run.high 0x110000) &&
    isSolid run.first run.last && isSolid run.low run.high

/-- Whether no lower-case letter of a run is in any of the others. These stand in order, so that
the search ends with the first one that lies behind. A run that is not passed by has letters at
every other place, and those of lower case stand between them. -/
def misses (run : CaseRun) : List CaseRun → Bool
  | [] => true
  | other :: rest =>
    bif Nat.blt other.last run.low then run.misses rest
    else bif Nat.blt run.high other.first then true
    else Nat.beq other.step 2 && (Nat.beq run.step 2 || Nat.beq run.first run.last) &&
      Nat.beq ((run.low + other.first) % 2) 1 && run.misses rest

section Covered

variable (run : CaseRun) (n : Nat)

theorem covers_iff : run.covers n = true ↔ run.first ≤ n ∧ n ≤ run.last ∧ (n - run.first) % run.step = 0 := by
  simp [covers,and_assoc]

variable (inside : run.covers n = true) (positive : 0 < run.low)
include inside positive

theorem lowered_between : run.low ≤ Int.toNat (n + run.shift) ∧ Int.toNat (n + run.shift) ≤ run.high := by
  rw [covers_iff] at inside
  unfold low at positive
  unfold low high
  omega

theorem not_covers_of_misses (others : List CaseRun) (ordered : (others.map first).Pairwise (· ≤ ·))
    (misses : run.misses others = true) : ∀ other ∈ others, other.covers (Int.toNat (n + run.shift)) = false := by
  have between := run.lowered_between n inside positive
  induction others with
  | nil => simp
  | cons other others ih =>
    obtain ⟨least,rest⟩ := List.pairwise_cons.mp (List.map_cons ▸ ordered)
    rw [CaseRun.misses] at misses
    cases passed : Nat.blt other.last run.low with
    | true =>
      rw [passed,cond_true] at misses
      rw [Nat.blt_eq] at passed
      refine List.forall_mem_cons.mpr ⟨?_,ih rest misses⟩
      rw [Bool.eq_false_iff,ne_eq,covers_iff]
      omega
    | false =>
      cases behind : Nat.blt run.high other.first with
      | true =>
        rw [Nat.blt_eq] at behind
        have farther : ∀ later ∈ other :: others, run.high < later.first :=
          List.forall_mem_cons.mpr ⟨behind,fun later member =>
            Nat.lt_of_lt_of_le behind (least later.first (List.mem_map_of_mem member))⟩
        intro later member
        have far := farther later member
        rw [Bool.eq_false_iff,ne_eq,covers_iff]
        omega
      | false =>
        simp only [passed,behind,cond_false,Bool.and_eq_true,Bool.or_eq_true,Nat.beq_eq] at misses
        obtain ⟨⟨⟨two,alike⟩,odd⟩,later⟩ := misses
        refine List.forall_mem_cons.mpr ⟨?_,ih rest later⟩
        rw [covers_iff] at inside
        rw [Bool.eq_false_iff,ne_eq,covers_iff,two]
        unfold low at positive odd
        rcases alike with both | single
        · rw [both] at inside
          omega
        · omega

end Covered

theorem not_isBlank_of_isSolid (first last : Nat) (solid : isSolid first last = true) (c : Char)
    (least : first ≤ c.toNat) (most : c.toNat ≤ last) : isBlank c = false := by
  refine Bool.eq_false_iff.mpr fun blank => ?_
  obtain ⟨range,listed,begins,ends⟩ := exists_range_of_isBlank c blank
  have apart := List.all_eq_true.mp solid range listed
  rw [Bool.or_eq_true,Nat.blt_eq,Nat.blt_eq] at apart
  omega

end CaseRun

theorem caseRuns_ordered : (caseRuns.map CaseRun.first).Pairwise (· ≤ ·) := by
  have chain : (caseRuns.map CaseRun.first).IsChain (· ≤ ·) := by decide +kernel
  exact chain.pairwise

theorem caseRuns_sound : (caseRuns.all fun run => run.isSound && run.misses caseRuns) = true := by decide +kernel

section Letters

variable (c : Char)

/-- What the table says of a letter that is in it. -/
theorem lowerChar_of_find (run : CaseRun) (found : caseRuns.find? (·.covers c.toNat) = some run) :
    (lowerChar c).toNat = Int.toNat (c.toNat + run.shift) ∧ isBlank c = false ∧ isBlank (lowerChar c) = false ∧
      caseRuns.find? (·.covers (lowerChar c).toNat) = none := by
  have inside := List.find?_some found
  change run.covers c.toNat = true at inside
  have sound := List.all_eq_true.mp caseRuns_sound run (List.mem_of_find?_eq_some found)
  simp only [CaseRun.isSound,Bool.and_eq_true,Bool.or_eq_true,Nat.blt_eq] at sound
  obtain ⟨⟨⟨⟨positive,valid⟩,solid⟩,solidLower⟩,misses⟩ := sound
  have between := run.lowered_between c.toNat inside positive
  have number : (lowerChar c).toNat = Int.toNat (c.toNat + run.shift) := by
    simp only [lowerChar,found]
    refine toNat_ofNat _ ?_
    unfold Nat.isValidChar
    omega
  refine ⟨number,?_,?_,?_⟩
  · obtain ⟨least,most,_⟩ := (run.covers_iff c.toNat).mp inside
    exact CaseRun.not_isBlank_of_isSolid _ _ solid c least most
  · exact CaseRun.not_isBlank_of_isSolid _ _ solidLower _ (number ▸ between.1) (number ▸ between.2)
  · rw [number,List.find?_eq_none]
    intro other listed
    simp [run.not_covers_of_misses c.toNat inside positive caseRuns caseRuns_ordered misses other listed]

theorem lowerChar_of_find_none (missing : caseRuns.find? (·.covers c.toNat) = none) : lowerChar c = c := by
  simp only [lowerChar,missing]

theorem lowerChar_lowerChar : lowerChar (lowerChar c) = lowerChar c := by
  cases found : caseRuns.find? (·.covers c.toNat) with
  | none => rw [lowerChar_of_find_none c found,lowerChar_of_find_none c found]
  | some run => exact lowerChar_of_find_none _ (lowerChar_of_find c run found).2.2.2

theorem isBlank_lowerChar : isBlank (lowerChar c) = isBlank c := by
  cases found : caseRuns.find? (·.covers c.toNat) with
  | none => rw [lowerChar_of_find_none c found]
  | some run =>
    obtain ⟨_,solid,solidLower,_⟩ := lowerChar_of_find c run found
    rw [solid,solidLower]

end Letters

namespace Glyph

/-- The lower-case letter of a glyph; a stray byte becomes a code point of its own. -/
def lowered (g : Glyph) : Glyph := ofChar ((g.char?.map lowerChar).getD (Char.ofNat 0xFFFD))

theorem isBlank_lowered (g : Glyph) : g.lowered.isBlank = g.isBlank := by
  obtain ⟨bytes,_ | c⟩ := g
  · have solid : SqlTidy.isBlank (Char.ofNat 0xFFFD) = false := by decide
    exact solid
  · exact isBlank_lowerChar c

theorem lowered_lowered (g : Glyph) : g.lowered.lowered = g.lowered := by
  obtain ⟨bytes,_ | c⟩ := g
  · have kept : lowerChar (Char.ofNat 0xFFFD) = Char.ofNat 0xFFFD := by decide +kernel
    exact congrArg ofChar kept
  · exact congrArg ofChar (lowerChar_lowerChar c)

end Glyph

section Texts

variable (text : Bytes)

theorem lower_eq_spell : lower text = spell ((glyphs text).map Glyph.lowered) := by
  rw [spell,List.flatMap_map]
  rfl

theorem glyphs_lower : glyphs (lower text) = (glyphs text).map Glyph.lowered := by
  rw [lower_eq_spell]
  apply glyphs_spell
  intro g member
  obtain ⟨h,_,rfl⟩ := List.mem_map.mp member
  exact ⟨_,encodes_utf8EncodeChar _,rfl⟩

theorem lower_lower : lower (lower text) = lower text := by
  have same : Glyph.lowered ∘ Glyph.lowered = Glyph.lowered := funext Glyph.lowered_lowered
  rw [lower_eq_spell (lower text),glyphs_lower,List.map_map,same,← lower_eq_spell]

end Texts

end SqlTidy
