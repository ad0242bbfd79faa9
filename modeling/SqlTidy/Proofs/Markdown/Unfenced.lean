import Mathlib.Data.List.Chain
import SqlTidy.Proofs.Markdown.Blocks

/-! Documents without fence marks. Reading never brings marks together that stood apart: what
is joined is joined behind a newline, and what is left out stands at the start of a line. A
document without three backticks or three tildes in a row therefore has no fences. -/
namespace SqlTidy.Markdown
open Ascii

/-- A text in which neither three backticks nor three tildes stand in a row. -/
def Unfenced (text : Bytes) : Prop := ∀ mark, mark = backtick ∨ mark = tilde → ¬List.replicate 3 mark <:+: text

theorem newline_not_mem_marks {mark : UInt8} (kind : mark = backtick ∨ mark = tilde) : newline ∉ List.replicate 3 mark := by
  rcases kind with rfl | rfl <;> decide

/-- A text behind which a line begins. -/
def EndsLine (text : Bytes) : Prop := ∀ b ∈ text.getLast?, b = newline

namespace EndsLine

theorem append {front rest : Bytes} (first : EndsLine front) (second : EndsLine rest) : EndsLine (front ++ rest) := by
  intro b last
  rw [List.getLast?_append] at last
  rcases Option.or_eq_some_iff.mp last with later | ⟨_,earlier⟩
  · exact second b later
  · exact first b earlier

theorem drop {line : Bytes} (ends : EndsLine line) (size : Nat) : EndsLine (line.drop size) := by
  intro b last
  rw [List.getLast?_drop] at last
  split at last
  next => simp at last
  next => exact ends b last

theorem newlines {pad : Bytes} (all : ∀ b ∈ pad, b = newline) : EndsLine pad :=
  fun b last => all b (List.mem_of_getLast? last)

end EndsLine

theorem replicate_isPrefix {text : Bytes} {size : Nat} {mark : UInt8} (enough : size ≤ count (· == mark) text) :
    List.replicate size mark <+: text := by
  have run : text.take size = List.replicate size mark := by
    refine List.eq_replicate_iff.mpr ⟨?_,fun b member => mem_take_run size enough member⟩
    exact List.length_take_of_le (enough.trans (List.takeWhile_prefix _).length_le)
  exact run ▸ List.take_prefix size text

namespace Unfenced

theorem within {text piece : Bytes} (unfenced : Unfenced text) (inside : piece <:+: text) : Unfenced piece :=
  fun mark kind marks => unfenced mark kind (marks.trans inside)

theorem append {front rest : Bytes} (first : Unfenced front) (second : Unfenced rest) (ends : EndsLine front) :
    Unfenced (front ++ rest) := by
  intro mark kind marks
  rcases List.infix_append_iff.mp marks with inside | inside | ⟨left,right,both,before,after⟩
  · exact first mark kind inside
  · exact second mark kind inside
  · rcases List.eq_nil_or_concat left with rfl | ⟨left,b,rfl⟩
    · exact second mark kind (both ▸ after.isInfix)
    · -- The last mark before the seam would have to be a newline.
      obtain ⟨start,rfl⟩ := before
      have among : b ∈ List.replicate 3 mark := both ▸ List.mem_append_left right (by simp)
      exact newline_not_mem_marks kind (ends b (by simp) ▸ among)

theorem newlines {pad : Bytes} (all : ∀ b ∈ pad, b = newline) : Unfenced pad := by
  intro mark kind marks
  have among : mark ∈ List.replicate 3 mark := by simp
  exact newline_not_mem_marks kind (all mark (marks.subset among) ▸ among)

/-! Nothing in such a text is read as code. -/

theorem fenced?_eq_none {text : Bytes} (unfenced : Unfenced text) : fenced? text = none := by
  have opens : opening? text = none := by
    simp only [opening?]
    split
    next => rfl
    next c start begins =>
      rw [if_neg]
      intro marked
      simp only [Bool.and_eq_true,Bool.or_eq_true,beq_iff_eq,decide_eq_true_eq] at marked
      exact unfenced c marked.1 ((replicate_isPrefix marked.2).isInfix.trans (List.drop_suffix _ _).isInfix)
  simp [fenced?,opens]

theorem codeSpan_eq_nil {text : Bytes} (unfenced : Unfenced text) : (codeSpan text).1 = [] := by
  have few : count (· == backtick) text ≠ 3 := fun three =>
    unfenced backtick (.inl rfl) (replicate_isPrefix three.ge).isInfix
  simp [codeSpan,few]

end Unfenced

/-! Lines, and texts put together from them. -/

theorem lines_isChain (text : Bytes) : (lines text).IsChain fun line _ => EndsLine line := by
  have ends : (lines text).IsChain fun line _ => line.getLast? = some newline := by
    induction text with
    | nil => exact .nil
    | cons b text ih =>
      rw [lines]
      split
      next line =>
        rw [beq_iff_eq.mp line]
        exact List.isChain_cons.mpr ⟨fun _ _ => rfl,ih⟩
      next =>
        split
        next => exact .singleton _
        next line more cut =>
          rw [cut,List.isChain_cons] at ih
          exact List.isChain_cons.mpr ⟨fun next first => by simp [List.getLast?_cons,ih.1 next first],ih.2⟩
  exact ends.imp fun line _ last b found => Option.some.inj (found.symm.trans last)

/-- Lines that bring no marks together when they are joined: each but the first begins behind
a newline, or behind nothing. -/
structure Joinable (lines : List Bytes) : Prop where
  unfenced : ∀ line ∈ lines, Unfenced line
  chain : lines.IsChain fun line _ => EndsLine line

namespace Joinable

theorem lines {text : Bytes} (unfenced : Unfenced text) : Joinable (lines text) where
  unfenced line member := unfenced.within (line_within text line member)
  chain := lines_isChain text

theorem behind_nothing {lines : List Bytes} (joinable : Joinable lines) : Joinable ([] :: lines) where
  unfenced := List.forall_mem_cons.mpr ⟨.newlines (by simp),joinable.unfenced⟩
  chain := List.isChain_cons.mpr ⟨fun _ _ => .newlines (by simp),joinable.chain⟩

theorem first_line {text : Bytes} (unfenced : Unfenced text) :
    Joinable (text.take (lineSize text) :: Markdown.lines (text.drop (lineSize text))) := by
  by_cases none : text = []
  · subst none
    exact behind_nothing (lines unfenced)
  · rw [← lines_cons text none]
    exact lines unfenced

theorem skip {front line : Bytes} {more : List Bytes} (joinable : Joinable (front :: line :: more)) :
    Joinable (front :: more) where
  unfenced := by
    obtain ⟨first,others⟩ := List.forall_mem_cons.mp joinable.unfenced
    exact List.forall_mem_cons.mpr ⟨first,List.forall_mem_of_forall_mem_cons others⟩
  chain := by
    have ends : EndsLine front := joinable.chain.rel
    exact List.isChain_cons.mpr ⟨fun _ _ => ends,joinable.chain.tail.tail⟩

theorem join {front line pad : Bytes} {more : List Bytes} (joinable : Joinable (front :: line :: more))
    (newlines : ∀ b ∈ pad, b = newline) (size : Nat) : Joinable ((front ++ pad ++ line.drop size) :: more) := by
  obtain ⟨first,others⟩ := List.forall_mem_cons.mp joinable.unfenced
  obtain ⟨second,rest⟩ := List.forall_mem_cons.mp others
  obtain ⟨ends,chain⟩ := List.isChain_cons_cons.mp joinable.chain
  have padded : EndsLine (front ++ pad) := ends.append (.newlines newlines)
  constructor
  · have joined : Unfenced (front ++ pad ++ line.drop size) :=
      (first.append (.newlines newlines) ends).append (second.within (List.drop_suffix _ _).isInfix) padded
    exact List.forall_mem_cons.mpr ⟨joined,rest⟩
  · obtain ⟨link,chain⟩ := List.isChain_cons.mp chain
    exact List.isChain_cons.mpr ⟨fun next first => padded.append ((link next first).drop size),chain⟩

end Joinable

theorem gather_unfenced (kind : ListKind) (indent : Nat) (blank : Bool) (lines : List Bytes) (g : Gathered)
    (joinable : Joinable (g.raw :: lines)) : Unfenced (gather kind indent blank lines g).raw := by
  induction lines generalizing blank g with
  | nil => exact joinable.unfenced _ List.mem_cons_self
  | cons line more ih =>
    rcases gather_step kind indent blank line more g with same | ⟨later,next,step,same | ⟨pad,size,_,newlines,_,added⟩⟩
    · rw [same]
      exact joinable.unfenced _ List.mem_cons_self
    · rw [step]
      exact ih later next (same ▸ joinable.skip)
    · rw [step]
      exact ih later next (added ▸ joinable.join newlines size)

theorem item?_unfenced (kind : ListKind) (state : ListState) (text : Bytes) (unfenced : Unfenced text) (g : Gathered)
    (read : item? kind state text = some g) : Unfenced g.raw := by
  obtain ⟨⟨mark,term⟩,_,rfl⟩ := Option.map_eq_some_iff.mp read
  apply gather_unfenced
  simp only
  generalize mark + count (· == space) (text.drop mark) = start
  by_cases none : start = 0
  · simpa [none] using (Joinable.lines unfenced).behind_nothing
  · rw [if_neg (by simpa using none),length_firstLine,← List.drop_drop]
    exact .first_line (unfenced.within (List.drop_suffix _ _).isInfix)

/-! Quotes. -/

theorem quoteLineSize_eq (text : Bytes) (unfenced : Unfenced text) : quoteLineSize text = lineSize text := by
  induction text with
  | nil => rfl
  | cons b text ih =>
    have rest : Unfenced text := unfenced.within (List.suffix_cons b text).isInfix
    have plain : fencedSize (b :: text) = 0 := by simp [fencedSize,unfenced.fenced?_eq_none]
    simp only [quoteLineSize,plain]
    split
    next line => rw [beq_iff_eq.mp line,lineSize_newline]
    next other => rw [if_neg (Nat.lt_irrefl 0),ih rest,lineSize_cons b text (by simpa using other)]

theorem quoteText_unfenced (fuel : Nat) (text : Bytes) (unfenced : Unfenced text) : Unfenced (quoteText fuel text).1 := by
  have empty : Unfenced [] := .newlines (by simp)
  induction fuel generalizing text with
  | zero => exact empty
  | succ fuel ih =>
    simp only [quoteText,quoteLineSize_eq text unfenced]
    split
    next => exact empty
    next =>
      split
      next => exact empty
      next =>
        have line : Unfenced ((text.take (lineSize text)).drop (quoteSize text)) :=
          unfenced.within ((List.drop_suffix _ _).isInfix.trans (List.take_prefix _ _).isInfix)
        have first := Joinable.first_line unfenced
        have later : Unfenced (text.drop (lineSize text)) := unfenced.within (List.drop_suffix _ _).isInfix
        generalize text.drop (lineSize text) = after at first later
        by_cases last : after = []
        · rw [last,quoteText_nil,List.append_nil]
          exact line
        · rw [lines_cons after last] at first
          exact line.append (ih after later) (first.chain.rel.drop _)

/-! Documents. -/

theorem eq_nil_of_prefix_newline {marks rest : Bytes} (visible : newline ∉ marks) (starts : marks <+: newline :: rest) :
    marks = [] := by
  rcases List.prefix_cons_iff.mp starts with none | ⟨more,rfl,_⟩
  · exact none
  · exact absurd List.mem_cons_self visible

theorem normalizeNewlines_isPrefix (marks text : Bytes) (visible : newline ∉ marks)
    (starts : marks <+: normalizeNewlines text) : marks <+: text := by
  fun_induction normalizeNewlines text generalizing marks with
  | case1 | case3 => exact starts
  | case2 | case4 | case5 =>
    rw [eq_nil_of_prefix_newline visible starts]
    exact List.nil_prefix
  | case6 b c rest _ ih =>
    rcases List.prefix_cons_iff.mp starts with rfl | ⟨more,rfl,later⟩
    · exact List.nil_prefix
    · exact List.cons_prefix_cons.mpr ⟨rfl,ih more (List.not_mem_of_not_mem_cons visible) later⟩

theorem normalizeNewlines_unfenced (text : Bytes) (unfenced : Unfenced text) : Unfenced (normalizeNewlines text) := by
  have line : ∀ b ∈ [newline], b = newline := by simp
  fun_induction normalizeNewlines text with
  | case1 | case3 => exact unfenced
  | case2 => exact .newlines line
  | case4 b c rest _ _ ih =>
    have later := ih (unfenced.within (List.suffix_append [b,c] rest).isInfix)
    exact Unfenced.append (.newlines line) later (.newlines line)
  | case5 b c rest _ _ ih =>
    have later := ih (unfenced.within (List.suffix_cons b _).isInfix)
    exact Unfenced.append (.newlines line) later (.newlines line)
  | case6 b c rest other ih =>
    intro mark kind marks
    rcases List.infix_cons_iff.mp marks with here | later
    · have whole : normalizeNewlines (b :: c :: rest) = b :: normalizeNewlines (c :: rest) := if_neg other
      exact unfenced mark kind (normalizeNewlines_isPrefix _ _ (newline_not_mem_marks kind) (whole ▸ here)).isInfix
    · exact ih (unfenced.within (List.suffix_cons b _).isInfix) mark kind later

theorem Yields.unfenced (text piece : Bytes) (yields : Yields text piece) (unfenced : Unfenced text) : Unfenced piece := by
  cases yields with
  | piece inside => exact unfenced.within inside
  | item kind state g read => exact item?_unfenced kind state text unfenced g read
  | quote fuel marked => exact quoteText_unfenced fuel text unfenced

/-- A document without fence marks has no fences. -/
theorem fences_eq_nil (document : Bytes) (unfenced : Unfenced document) : fences document = [] := by
  refine List.eq_nil_iff_forall_not_mem.mpr fun fence member => ?_
  obtain ⟨text,reaches,found⟩ := fences_stems document fence member
  have plain : Unfenced text := reaches.keeps Unfenced Yields.unfenced (normalizeNewlines_unfenced document unfenced)
  rcases found with ⟨size,block⟩ | span
  · simp [plain.fenced?_eq_none] at block
  · simp [plain.codeSpan_eq_nil] at span

end SqlTidy.Markdown
