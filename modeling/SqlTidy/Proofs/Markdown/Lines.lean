import SqlTidy.Markdown.Block
import SqlTidy.Proofs.Markdown.Code

/-! Texts that are put together anew from the lines of another: list items without their
indentation, quotes without their marks. Lines are cut next to ASCII bytes, so that of a
part of a valid text a part of a valid text is made. -/
namespace SqlTidy.Markdown
open Ascii Utf8

/-! Lines. -/

theorem lineSize_newline (text : Bytes) : lineSize (newline :: text) = 1 := by
  simp [lineSize,lineBody]

theorem lineSize_cons (b : UInt8) (text : Bytes) (other : b ≠ newline) : lineSize (b :: text) = lineSize text + 1 := by
  simp [lineSize,lineBody,other]

theorem length_firstLine (text : Bytes) : (text.take (lineSize text)).length = lineSize text :=
  List.length_take_of_le (Nat.min_le_right _ _)

theorem lines_cons (text : Bytes) (some : text ≠ []) :
    lines text = text.take (lineSize text) :: lines (text.drop (lineSize text)) := by
  induction text with
  | nil => exact absurd rfl some
  | cons b text ih =>
    by_cases line : b = newline
    · rw [line,lineSize_newline]
      rfl
    · rw [lineSize_cons b text line,lines,if_neg (by simpa using line)]
      cases text with
      | nil => rfl
      | cons c text =>
        rw [ih (by simp)]
        rfl

theorem lineSize_seam (text : Bytes) :
    text.length ≤ lineSize text ∨ Seam (text.take (lineSize text)) (text.drop (lineSize text)) := by
  induction text with
  | nil => exact .inl (Nat.zero_le _)
  | cons b text ih =>
    by_cases line : b = newline
    · rw [line,lineSize_newline]
      exact .inr (.behind_byte [] newline (by decide) text)
    · rw [lineSize_cons b text line]
      exact ih.imp (fun short => Nat.succ_le_succ short) fun seam => seam.cons b

theorem flatten_lines (text : Bytes) : (lines text).flatten = text := by
  induction text with
  | nil => rfl
  | cons b text ih =>
    rw [lines]
    split
    next => simp [ih]
    next =>
      split
      next none => simpa [none] using ih
      next line more cut => simpa [cut] using ih

theorem line_within (text line : Bytes) (member : line ∈ lines text) : line <:+: text := by
  have inside := List.infix_of_mem_flatten member
  rwa [flatten_lines] at inside

/-- Lines that are valid, but that the last may be torn at its end. -/
def Lined : List Bytes → Prop
  | [] => True
  | line :: more => (more = [] ∧ IsStart line) ∨ (isUtf8 line = true ∧ Lined more)

theorem lines_lined (text : Bytes) (starts : IsStart text) : Lined (lines text) := by
  induction size : text.length using Nat.strongRecOn generalizing text with
  | ind size ih =>
    by_cases none : text = []
    · simp [none,lines,Lined]
    · rw [lines_cons text none]
      rcases lineSize_seam text with last | seam
      · rw [List.drop_eq_nil_of_le last,List.take_of_length_le last]
        exact .inl ⟨rfl,starts⟩
      · rw [← List.take_append_drop (lineSize text) text] at starts
        obtain ⟨valid,later⟩ := starts.cut seam
        refine .inr ⟨valid,ih _ ?_ _ later rfl⟩
        have positive : 0 < lineSize text := by
          have some := List.length_pos_iff.mpr none
          simp only [lineSize]
          omega
        have some := List.length_pos_iff.mpr none
        rw [List.length_drop,size]
        omega

/-! List items. -/

theorem indentation_ascii (line : Bytes) : ∀ b ∈ line.take (indentation line).2, b < 0x80 := by
  simp only [indentation]
  split
  next begins =>
    cases line with
    | nil => simp
    | cons b line =>
      have first : b = tab := by simpa [startsWith] using begins
      simp only [first,List.take_succ_cons,List.take_zero,List.forall_mem_singleton]
      decide
  next =>
    intro b member
    rw [mem_take_run _ (Nat.min_le_right _ _) member]
    decide

theorem Gathered.nest_raw (g : Gathered) (line : Bytes) : (g.nest line).raw = g.raw := by
  simp only [nest]
  split <;> rfl

theorem nested_drop (line : Bytes) (width : Nat) (small : ∀ b ∈ line.take width, b < 0x80) :
    ∃ size, (∀ b ∈ line.take size, b < 0x80) ∧
      (if (width == 4 && definitionSize (line.drop width) == 0) = true then
        line.drop (3 - count (· == space) (line.drop width)) else line.drop width) = line.drop size := by
  split
  next deep =>
    simp only [Bool.and_eq_true,beq_iff_eq] at deep
    refine ⟨_,?_,rfl⟩
    intro b member
    exact small b ((List.take_prefix_take_left (by omega)).subset member)
  next => exact ⟨width,small,rfl⟩

/-- What one line does to an item: it ends it, or is read over, or is added without some of
its indentation, after newlines for a blank line before it. -/
theorem gather_step (kind : ListKind) (indent : Nat) (blank : Bool) (line : Bytes) (more : List Bytes) (g : Gathered) :
    (gather kind indent blank (line :: more) g).raw = g.raw ∨
      ∃ later next, gather kind indent blank (line :: more) g = gather kind indent later more next ∧
        (next.raw = g.raw ∨ ∃ pad size, (blank = false → pad = []) ∧ (∀ b ∈ pad, b = newline) ∧
          (∀ b ∈ line.take size, b < 0x80) ∧ next.raw = g.raw ++ pad ++ line.drop size) := by
  have width := indentation_ascii line
  have pad : ∀ b ∈ if blank then [newline] else [], b = newline := by
    split <;> simp
  have padded : blank = false → (if blank then [newline] else []) = [] := by simp +contextual
  simp only [gather]
  split
  next => exact .inr ⟨true,_,rfl,.inl rfl⟩
  next =>
    generalize indentation line = indented at width
    split
    next => exact .inl rfl
    next =>
      split
      next =>
        obtain ⟨size,small,kept⟩ := nested_drop line indented.2 width
        rw [kept]
        split
        next => split <;> exact .inl rfl
        next =>
          refine .inr ⟨false,_,rfl,.inr ⟨_,size,padded,pad,small,?_⟩⟩
          simp only [Gathered.add,Gathered.nest_raw]
          rfl
      next =>
        split
        next =>
          split
          next => exact .inl rfl
          next => exact .inr ⟨false,_,rfl,.inr ⟨_,_,padded,pad,width,rfl⟩⟩
        next =>
          split
          next => exact .inl rfl
          next =>
            split
            next yes =>
              refine .inr ⟨false,_,rfl,.inr ⟨[newline,newline],_,by simp [yes],by simp,width,?_⟩⟩
              simp [Gathered.add,Gathered.loosen]
            next => exact .inr ⟨false,_,rfl,.inr ⟨[],_,fun _ => rfl,by simp,width,by simp [Gathered.add]⟩⟩

theorem gather_part (kind : ListKind) (indent : Nat) (blank : Bool) (lines : List Bytes) (g : Gathered)
    (ends : IsEnd g.raw) (lined : Lined lines) : IsPart (gather kind indent blank lines g).raw := by
  induction lines generalizing blank g with
  | nil => exact ends.isPart
  | cons line more ih =>
    have rest : Lined more := by
      rcases lined with ⟨rfl,_⟩ | ⟨_,rest⟩
      · trivial
      · exact rest
    rcases gather_step kind indent blank line more g with same | ⟨later,next,step,same | ⟨pad,size,_,newlines,small,added⟩⟩
    · rw [same]
      exact ends.isPart
    · rw [step]
      exact ih later next (same ▸ ends) rest
    · rw [step]
      have gap : IsEnd (g.raw ++ pad) := ends.append (isUtf8_of_ascii pad fun b member => newlines b member ▸ by decide)
      rcases lined with ⟨rfl,starts⟩ | ⟨valid,_⟩
      · -- The last line may be torn at its end, but nothing comes behind it.
        simp only [gather,added]
        exact gap.join (starts.drop_ascii size small)
      · exact ih later next (added ▸ gap.append (isUtf8_drop_ascii line size small valid)) rest

/-- The rest of an item, after a first line that may begin in the middle of a code point. -/
theorem gather_after_line (kind : ListKind) (indent : Nat) (blank : Bool) (text : Bytes) (part : IsPart text) (g : Gathered)
    (inside : g.raw <:+ text.take (lineSize text)) :
    IsPart (gather kind indent blank (lines (text.drop (lineSize text))) g).raw := by
  rcases lineSize_seam text with last | seam
  · rw [List.drop_eq_nil_of_le last]
    exact part.within (inside.isInfix.trans (List.take_prefix _ _).isInfix)
  · rw [← List.take_append_drop (lineSize text) text] at part
    obtain ⟨ends,starts⟩ := part.cut seam
    exact gather_part _ _ _ _ _ (ends.suffix inside) (lines_lined _ starts)

theorem gather_lines (kind : ListKind) (indent : Nat) (text : Bytes) (part : IsPart text) (g : Gathered)
    (fresh : g.raw = []) : IsPart (gather kind indent false (lines text) g).raw := by
  have empty : IsPart [] := ⟨[],[],rfl⟩
  by_cases none : text = []
  · simp only [none,lines,gather,fresh]
    exact empty
  rw [lines_cons text none]
  rcases gather_step kind indent false (text.take (lineSize text)) (lines (text.drop (lineSize text))) g with
    same | ⟨later,next,step,same | ⟨pad,size,unpadded,_,_,added⟩⟩
  · rw [same]
    exact fresh ▸ empty
  · rw [step]
    exact gather_after_line _ _ _ _ part next (same ▸ fresh ▸ List.nil_suffix)
  · rw [unpadded rfl,fresh] at added
    rw [step]
    exact gather_after_line _ _ _ _ part next (added ▸ List.drop_suffix _ _)

theorem item?_part (kind : ListKind) (state : ListState) (text : Bytes) (part : IsPart text) (g : Gathered)
    (read : item? kind state text = some g) : IsPart g.raw := by
  obtain ⟨⟨mark,term⟩,_,rfl⟩ := Option.map_eq_some_iff.mp read
  simp only
  generalize mark + count (· == space) (text.drop mark) = start
  generalize (if startsWith tab text then 4 else margin text) = indent
  by_cases none : start = 0
  · rw [none]
    exact gather_lines _ _ _ part _ rfl
  · rw [if_neg (by simpa using none),length_firstLine,← List.drop_drop]
    exact gather_after_line _ _ _ _ (part.within (List.drop_suffix _ _).isInfix) _ List.suffix_rfl

/-! Quotes. -/

theorem quoteSize_ascii (text : Bytes) : ∀ b ∈ text.take (quoteSize text), b < 0x80 := by
  have margins : ∀ b ∈ text.take (margin text), b < 0x80 := fun b member => mem_take_margin member ▸ by decide
  simp only [quoteSize]
  split
  next => simp
  next b rest begins =>
    split
    next mark =>
      have first : b < 0x80 := beq_iff_eq.mp mark ▸ by decide
      intro c member
      split at member
      next blank =>
        rw [List.take_add,begins,List.mem_append] at member
        cases rest with
        | nil => simp [startsWith] at blank
        | cons d rest =>
          have second : d = space := by simpa [startsWith] using blank
          simp only [List.take_succ_cons,List.take_zero,List.mem_cons,List.not_mem_nil,or_false] at member
          rcases member with before | rfl | rfl
          · exact margins c before
          · exact first
          · exact second ▸ by decide
      next =>
        rw [List.take_add,begins,List.mem_append] at member
        simp only [List.take_succ_cons,List.take_zero,List.mem_singleton] at member
        rcases member with before | rfl
        · exact margins c before
        · exact first
    next => simp

/-- A fenced code block ends in an ASCII byte. -/
theorem fencedSize_last (text : Bytes) (some : fencedSize text > 0) :
    ∃ front b after, b < 0x80 ∧ text = front ++ b :: after ∧ fencedSize text = front.length + 1 := by
  simp only [fencedSize] at some ⊢
  split
  next fence size found =>
    obtain ⟨front,line,after,whole,closed,ascii,dropped,inside⟩ := fenced?_eq_some text fence size found
    obtain ⟨line,b,rfl⟩ : ∃ init b, line = init ++ [b] := ⟨_,_,(List.dropLast_concat_getLast closed).symm⟩
    refine ⟨front ++ newline :: (fence.literal ++ line),b,after,ascii b (by simp),by simp [whole],?_⟩
    have length := congrArg List.length dropped
    have total := congrArg List.length whole
    simp only [List.length_drop,List.length_append,List.length_cons,List.length_nil] at length total ⊢
    omega
  next none => simp [none] at some

theorem quoteLineSize_seam (text : Bytes) :
    text.length ≤ quoteLineSize text ∨ Seam (text.take (quoteLineSize text)) (text.drop (quoteLineSize text)) := by
  induction text with
  | nil => exact .inl (Nat.zero_le _)
  | cons b text ih =>
    simp only [quoteLineSize]
    split
    next line =>
      rw [beq_iff_eq.mp line]
      exact .inr (.behind_byte [] newline (by decide) text)
    next =>
      split
      next fenced =>
        obtain ⟨front,c,after,small,whole,size⟩ := fencedSize_last (b :: text) fenced
        right
        rw [size,Nat.add_sub_cancel,whole]
        split
        next =>
          have split : front ++ c :: after = front ++ [c] ++ after := by simp
          have length : front.length + 1 = (front ++ [c]).length := by simp
          rw [length,split,List.take_left]
          exact .behind_byte front c small _
        next =>
          rw [Nat.add_zero,List.drop_left]
          exact .before_byte _ c small after
      next =>
        exact ih.imp (fun short => Nat.succ_le_succ short) fun seam => seam.cons b

theorem quoteText_nil (fuel : Nat) : quoteText fuel [] = ([],0) := by
  cases fuel <;> rfl

theorem quoteText_start (fuel : Nat) (text : Bytes) (starts : IsStart text) : IsStart (quoteText fuel text).1 := by
  have empty : IsStart [] := ⟨[],rfl⟩
  induction fuel generalizing text with
  | zero => exact empty
  | succ fuel ih =>
    simp only [quoteText]
    split
    next => exact empty
    next =>
      split
      next => exact empty
      next =>
        rcases quoteLineSize_seam text with last | seam
        · rw [List.drop_eq_nil_of_le last,List.take_of_length_le last,quoteText_nil,List.append_nil]
          exact starts.drop_ascii _ (quoteSize_ascii text)
        · rw [← List.take_append_drop (quoteLineSize text) text] at starts
          obtain ⟨valid,later⟩ := starts.cut seam
          refine .join (isUtf8_drop_ascii _ _ ?_ valid) (ih _ later)
          intro b member
          rw [List.take_take,Nat.min_comm,← List.take_take] at member
          exact quoteSize_ascii text b (List.mem_of_mem_take member)

theorem quoteText_part (fuel : Nat) (text : Bytes) (part : IsPart text) (marked : quoteSize text > 0) :
    IsPart (quoteText fuel text).1 := by
  have some : text.take (quoteSize text) ≠ [] := by
    intro none
    rcases List.take_eq_nil_iff.mp none with zero | rfl
    · omega
    · simp [quoteSize] at marked
  -- The mark itself is ASCII, so that the text does not begin inside a code point.
  have seam := Seam.before [] some (quoteSize_ascii text) (text.drop (quoteSize text))
  rw [List.take_append_drop] at seam
  obtain ⟨_,starts⟩ := IsPart.cut (show IsPart ([] ++ text) from part) seam
  exact (quoteText_start fuel text starts).isPart

end SqlTidy.Markdown
