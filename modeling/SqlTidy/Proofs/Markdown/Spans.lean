import SqlTidy.Markdown.Span
import SqlTidy.Proofs.Markdown.Code

/-! Inline structure, seen from the code it finds. Every construct reads pieces of its own
text, so that each fence found is a code span of some piece. -/
namespace SqlTidy.Markdown
open Ascii

/-- The fences found are those that `inner` finds in pieces of the text. -/
def FoundIn (inner : Bytes → List Fence) (text : Bytes) (found : List Fence) : Prop :=
  ∀ fence ∈ found, ∃ piece, piece <:+: text ∧ fence ∈ inner piece

variable {inner : Bytes → List Fence}

theorem foundIn_nil (text : Bytes) : FoundIn inner text [] := by
  simp [FoundIn]

theorem foundIn_inner {text piece : Bytes} (inside : piece <:+: text) : FoundIn inner text (inner piece) :=
  fun _ member => ⟨piece,inside,member⟩

theorem FoundIn.longer {text whole : Bytes} {found : List Fence} (read : FoundIn inner text found)
    (inside : text <:+: whole) : FoundIn inner whole found := by
  intro fence member
  obtain ⟨piece,within,among⟩ := read fence member
  exact ⟨piece,within.trans inside,among⟩

theorem FoundIn.extend {text : Bytes} {found : List Fence × Nat} (read : FoundIn inner text found.1) (more : Nat) :
    FoundIn inner text (extend found more).1 := by
  simp only [Markdown.extend]
  split
  next => exact foundIn_nil text
  next => exact read

theorem singleFrom_foundIn (mark : UInt8) (text : Bytes) (fuel here : Nat) :
    FoundIn inner text (singleFrom inner mark text fuel here).1 := by
  induction fuel generalizing here with
  | zero => exact foundIn_nil text
  | succ fuel ih =>
    simp only [singleFrom]
    split
    next => exact foundIn_nil text
    next =>
      split
      next => exact ih _
      next =>
        split
        next => exact foundIn_inner (List.take_prefix _ _).isInfix
        next =>
          split
          next => exact foundIn_nil text
          next => exact ih _

theorem doubleFrom_foundIn (mark : UInt8) (text : Bytes) (fuel here : Nat) :
    FoundIn inner text (doubleFrom inner mark text fuel here).1 := by
  induction fuel generalizing here with
  | zero => exact foundIn_nil text
  | succ fuel ih =>
    simp only [doubleFrom]
    split
    next => exact foundIn_nil text
    next =>
      split
      next => exact foundIn_inner (List.take_prefix _ _).isInfix
      next => exact ih _

theorem single_foundIn (mark : UInt8) (text whole : Bytes) (inside : text <:+: whole) :
    FoundIn inner whole (single inner mark text).1 :=
  (singleFrom_foundIn mark text _ _).longer inside

theorem double_foundIn (mark : UInt8) (text whole : Bytes) (inside : text <:+: whole) :
    FoundIn inner whole (double inner mark text).1 :=
  (doubleFrom_foundIn mark text _ _).longer inside

theorem triple_foundIn (mark : UInt8) (text : Bytes) : FoundIn inner text (triple inner mark text).1 := by
  simp only [triple]
  split
  next => exact foundIn_nil text
  next =>
    split
    next =>
      split
      next => exact foundIn_inner ((List.take_prefix _ _).isInfix.trans (List.drop_suffix _ _).isInfix)
      next => exact (single_foundIn mark _ text (List.drop_suffix _ _).isInfix).extend 1
    next => exact (double_foundIn mark _ text (List.drop_suffix _ _).isInfix).extend 2

theorem emphasis_foundIn (text : Bytes) : FoundIn inner text (emphasis inner text).1 := by
  unfold emphasis
  split
  next mark b c rest =>
    have one : b :: c :: rest <:+: mark :: b :: c :: rest := (List.suffix_cons _ _).isInfix
    have two : c :: rest <:+: mark :: b :: c :: rest := (List.suffix_cons b _).isInfix.trans one
    split
    next =>
      split
      next => exact foundIn_nil _
      next => exact (single_foundIn mark _ _ one).extend 1
    next =>
      split
      next =>
        split
        next => exact foundIn_nil _
        next => exact (double_foundIn mark _ _ two).extend 2
      next =>
        split
        next =>
          split
          next => exact foundIn_nil _
          next => exact triple_foundIn mark _
        next => exact foundIn_nil _
  next => exact foundIn_nil _

theorem link?_label (known : List Bytes) (text : Bytes) (link : Link) (found : link? known text = some link) :
    link.label <:+: text := by
  unfold link? at found
  split at found
  next => simp at found
  next first rest =>
    split at found
    next => simp at found
    next length _ =>
      obtain ⟨after,_,rfl⟩ := Option.map_eq_some_iff.mp found
      exact (List.take_prefix length rest).isInfix.trans (List.suffix_cons first rest).isInfix

namespace Reader

variable (reader : Reader)

theorem link_foundIn (before text : Bytes) : FoundIn (reader.inner true) text (reader.link before text).1 := by
  simp only [link]
  split
  next => exact foundIn_nil text
  next =>
    split
    next => split <;> exact foundIn_nil text
    next =>
      split
      next found => exact foundIn_inner (link?_label _ _ _ found)
      next => exact foundIn_nil text

/-- Each fence of a construct is a code span, or is found by reading a piece of it. -/
theorem construct_fences (before text : Bytes) (fence : Fence) (member : fence ∈ (reader.construct before text).1) :
    fence ∈ (codeSpan text).1 ∨ ∃ inLink piece, piece <:+: text ∧ fence ∈ reader.inner inLink piece := by
  unfold construct at member
  split at member
  next => simp at member
  next b rest =>
    split at member
    next => exact .inr ⟨reader.inLink,emphasis_foundIn _ fence member⟩
    next =>
      split at member
      next => exact .inl member
      next =>
        split at member
        next => exact .inr ⟨true,reader.link_foundIn before _ fence member⟩
        next => simp [apply_ite Prod.fst] at member

theorem scan_foundIn (sound : ∀ inLink text, FoundIn (fun piece => (codeSpan piece).1) text (reader.inner inLink text))
    (before : Bytes) (skip : Nat) (text : Bytes) :
    FoundIn (fun piece => (codeSpan piece).1) text (reader.scan before skip text) := by
  induction text generalizing before skip with
  | nil => exact foundIn_nil []
  | cons b text ih =>
    have rest : text <:+: b :: text := (List.suffix_cons b text).isInfix
    cases skip with
    | succ skip => exact (ih _ _).longer rest
    | zero =>
      intro fence member
      simp only [scan] at member
      rcases List.mem_append.mp member with here | later
      · rcases reader.construct_fences before (b :: text) fence here with span | ⟨inLink,piece,inside,found⟩
        · exact ⟨b :: text,List.infix_rfl,span⟩
        · exact (sound inLink piece).longer inside fence found
      · exact (ih _ _).longer rest fence later

end Reader

theorem spans_foundIn (known : List Bytes) (levels : Nat) (inLink : Bool) (text : Bytes) :
    FoundIn (fun piece => (codeSpan piece).1) text (spans known levels inLink text) := by
  induction levels generalizing inLink text with
  | zero => exact foundIn_nil text
  | succ levels ih => exact Reader.scan_foundIn ⟨known,inLink,spans known levels⟩ ih [] 0 text

end SqlTidy.Markdown
