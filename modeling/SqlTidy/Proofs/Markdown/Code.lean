import Mathlib.Data.List.TakeWhile
import SqlTidy.Markdown.CodeSpan
import SqlTidy.Proofs.Text.Validity

/-! Where the code of a fence stands in its text: behind the newline of the opening line and
before a closing line of ASCII bytes, or between two runs of backticks. In a part of a
valid text it is therefore valid. -/
namespace SqlTidy.Markdown
open Ascii Utf8

theorem take_count (test : UInt8 → Bool) (text : Bytes) : text.take (count test text) = text.takeWhile test :=
  (List.prefix_iff_eq_take.mp (List.takeWhile_prefix test)).symm

theorem drop_count (test : UInt8 → Bool) (text : Bytes) : text.drop (count test text) = text.dropWhile test := by
  have split := List.take_append_drop (count test text) text
  rw [take_count] at split
  exact List.append_cancel_left (split.trans List.takeWhile_append_dropWhile.symm)

theorem mem_takeWhile_beq {b c : UInt8} {text : Bytes} (member : c ∈ text.takeWhile (· == b)) : c = b := by
  simpa using List.mem_takeWhile_imp member

theorem dropSpaces_suffix (text : Bytes) : dropSpaces text <:+ text := List.dropWhile_suffix _

theorem dropFinalSpaces_isPrefix (text : Bytes) : dropFinalSpaces text <+: text := by
  have suffix : text.reverse.dropWhile (· == space) <:+ text.reverse := List.dropWhile_suffix _
  simpa [dropFinalSpaces,Bytes.dropRightWhile] using List.reverse_prefix.mpr suffix

theorem mem_take_run {b c : UInt8} {text : Bytes} (size : Nat) (short : size ≤ count (· == c) text)
    (member : b ∈ text.take size) : b = c := by
  have inside : text.take size <+: text.takeWhile (· == c) := by
    rw [← take_count]
    exact List.take_prefix_take_left short
  exact mem_takeWhile_beq (inside.subset member)

theorem mem_take_margin {b : UInt8} {text : Bytes} (member : b ∈ text.take (margin text)) : b = space :=
  mem_take_run (margin text) (Nat.min_le_right _ _) member

/-- What follows the body of a line is nothing, or begins with its newline. -/
theorem drop_lineBody (text : Bytes) :
    text.drop (lineBody text).length = [] ∨ ∃ rest, text.drop (lineBody text).length = newline :: rest := by
  have dropped : text.drop (lineBody text).length = text.dropWhile (· != newline) := drop_count _ text
  rw [dropped]
  cases found : text.dropWhile (· != newline) with
  | nil => exact .inl rfl
  | cons b rest =>
    have stops := List.head?_dropWhile_not (· != newline) text
    rw [found] at stops
    exact .inr ⟨rest,by simpa using stops⟩

theorem lineEnd?_eq_some (text rest : Bytes) (ends : lineEnd? text = some rest) :
    ∃ pad, (∀ b ∈ pad, b = space) ∧ (text = pad ∧ rest = [] ∨ text = pad ++ newline :: rest) := by
  refine ⟨text.takeWhile (· == space),fun b => mem_takeWhile_beq,?_⟩
  have split : text = text.takeWhile (· == space) ++ dropSpaces text := List.takeWhile_append_dropWhile.symm
  simp only [lineEnd?] at ends
  split at ends
  next none =>
    rw [none,List.append_nil] at split
    exact .inl ⟨split,(Option.some.inj ends).symm⟩
  next b later some =>
    split at ends
    next line =>
      rw [some,beq_iff_eq.mp line,Option.some.inj ends] at split
      exact .inr split
    next => simp at ends

theorem info?_eq_some (text info rest : Bytes) (read : info? text = some (info,rest)) :
    ∃ front, text = front ++ rest ∧ (rest = [] ∨ Seam front rest) := by
  cases text with
  | nil =>
    simp only [info?,Option.some.injEq,Prod.mk.injEq] at read
    exact ⟨[],by simp [← read.2],.inl read.2.symm⟩
  | cons b text =>
    simp only [info?] at read
    split at read
    next =>
      generalize inner : (text.takeWhile fun c => c != closeBrace && c != newline).length = size at read
      split at read
      next => simp at read
      next c after closed =>
        split at read
        next brace =>
          simp only [Option.some.injEq,Prod.mk.injEq] at read
          obtain ⟨_,rfl⟩ := read
          have cut := List.take_append_drop size text
          rw [closed,beq_iff_eq.mp brace] at cut
          refine ⟨b :: text.take size ++ [closeBrace],?_,.inr (.behind_byte _ _ (by decide) _)⟩
          rw [List.append_assoc,List.cons_append,List.singleton_append,cut]
        next => simp at read
    next =>
      simp only [Option.some.injEq,Prod.mk.injEq] at read
      obtain ⟨_,rfl⟩ := read
      refine ⟨(b :: text).take (lineBody (b :: text)).length,(List.take_append_drop _ _).symm,?_⟩
      rcases drop_lineBody (b :: text) with none | ⟨rest,line⟩
      · exact .inl none
      · rw [line]
        exact .inr (.before_byte _ _ (by decide) _)

theorem opening?_eq_some (text : Bytes) (opening : Opening) (opens : opening? text = some opening) :
    (∀ b ∈ opening.marker, b < 0x80) ∧
      (text.drop opening.size = [] ∨ ∃ front, text = front ++ newline :: text.drop opening.size) := by
  simp only [opening?] at opens
  split at opens
  next => simp at opens
  next c start begins =>
    split at opens
    next mark =>
      split at opens
      next => simp at opens
      next info after read =>
        obtain ⟨rest,ends,rfl⟩ := Option.map_eq_some_iff.mp opens
        constructor
        · intro b member
          rw [begins] at member
          rw [mem_takeWhile_beq member]
          simp only [Bool.and_eq_true,Bool.or_eq_true,beq_iff_eq] at mark
          rcases mark.1 with rfl | rfl <;> decide
        · obtain ⟨front,line,_⟩ := info?_eq_some _ _ _ read
          have inside : after <:+ text := by
            have suffix : after <:+ dropSpaces ((text.drop (margin text)).drop
                ((text.drop (margin text)).takeWhile (· == c)).length) := ⟨front,line.symm⟩
            exact ((suffix.trans (dropSpaces_suffix _)).trans (List.drop_suffix _ _)).trans (List.drop_suffix _ _)
          obtain ⟨pad,_,⟨_,none⟩ | later⟩ := lineEnd?_eq_some after rest ends
          · left
            simp [none]
          · right
            have line : newline :: rest <:+ text := List.IsSuffix.trans ⟨pad,later.symm⟩ inside
            have dropped : rest = text.drop (text.length - rest.length) :=
              List.suffix_iff_eq_drop.mp ((List.suffix_cons newline rest).trans line)
            obtain ⟨before,whole⟩ := line
            exact ⟨before,by rw [← dropped,whole]⟩
    next => simp at opens

/-- A closing line holds ASCII bytes only, and some. -/
theorem afterClosing?_eq_some (marker text after : Bytes) (small : ∀ b ∈ marker, b < 0x80)
    (closes : afterClosing? marker text = some after) :
    ∃ line, text = line ++ after ∧ line ≠ [] ∧ ∀ b ∈ line, b < 0x80 := by
  have blank : space < 0x80 := by decide
  simp only [afterClosing?] at closes
  split at closes
  next => simp at closes
  next c marker =>
    split at closes
    next same =>
      have run := List.takeWhile_append_dropWhile (p := (· == c)) (l := text.drop (margin text))
      rw [beq_iff_eq.mp same] at run
      rw [← run,List.drop_left] at closes
      have whole := List.take_append_drop (margin text) text
      rw [← run] at whole
      have margins : ∀ b ∈ text.take (margin text), b < 0x80 := fun b member => mem_take_margin member ▸ blank
      obtain ⟨pad,spaces,⟨padded,none⟩ | padded⟩ := lineEnd?_eq_some _ _ closes
      · refine ⟨text,by simp [none],by rw [← whole]; simp,?_⟩
        rw [← whole,padded]
        intro b member
        simp only [List.mem_append] at member
        rcases member with first | marked | last
        · exact margins b first
        · exact small b marked
        · exact spaces b last ▸ blank
      · refine ⟨text.take (margin text) ++ (c :: marker) ++ pad ++ [newline],?_,by simp,?_⟩
        · rw [padded] at whole
          exact whole.symm.trans (by simp)
        · intro b member
          simp only [List.mem_append,List.mem_singleton] at member
          rcases member with ((first | marked) | last) | rfl
          · exact margins b first
          · exact small b marked
          · exact spaces b last ▸ blank
          · decide
    next => simp at closes

theorem upToClosing?_eq_some (marker : Bytes) (small : ∀ b ∈ marker, b < 0x80) (fresh : Bool)
    (text code after : Bytes) (closes : upToClosing? marker fresh text = some (code,after)) :
    ∃ line, text = code ++ line ++ after ∧ line ≠ [] ∧ ∀ b ∈ line, b < 0x80 := by
  induction text generalizing fresh code with
  | nil => simp [upToClosing?] at closes
  | cons b text ih =>
    simp only [upToClosing?] at closes
    split at closes
    next later found =>
      simp only [Option.some.injEq,Prod.mk.injEq] at closes
      obtain ⟨rfl,rfl⟩ := closes
      split at found
      next => exact afterClosing?_eq_some marker _ _ small found
      next => simp at found
    next =>
      obtain ⟨⟨rest,later⟩,found,same⟩ := Option.map_eq_some_iff.mp closes
      simp only [Prod.mk.injEq] at same
      obtain ⟨rfl,rfl⟩ := same
      obtain ⟨line,rfl,some,ascii⟩ := ih _ _ found
      exact ⟨line,rfl,some,ascii⟩

theorem fenced?_eq_some (text : Bytes) (fence : Fence) (size : Nat) (found : fenced? text = some (fence,size)) :
    ∃ front line after, text = front ++ newline :: (fence.literal ++ line ++ after) ∧ line ≠ [] ∧
      (∀ b ∈ line, b < 0x80) ∧ text.drop size = after ∧ size ≤ text.length := by
  simp only [fenced?] at found
  split at found
  next => simp at found
  next opening opens =>
    obtain ⟨⟨code,after⟩,closes,same⟩ := Option.map_eq_some_iff.mp found
    simp only [Prod.mk.injEq] at same
    obtain ⟨rfl,rfl⟩ := same
    obtain ⟨small,begins⟩ := opening?_eq_some text opening opens
    obtain ⟨line,split,some,ascii⟩ := upToClosing?_eq_some _ small _ _ _ _ closes
    rcases begins with none | ⟨front,whole⟩
    · rw [none] at closes
      simp [upToClosing?] at closes
    · rw [split] at whole
      have inside : after <:+ text := ⟨front ++ newline :: (code ++ line),by simp [whole]⟩
      exact ⟨front,line,after,whole,some,ascii,(List.suffix_iff_eq_drop.mp inside).symm,Nat.sub_le _ _⟩

theorem fenced?_valid (text : Bytes) (part : IsPart text) (fence : Fence) (size : Nat)
    (found : fenced? text = some (fence,size)) : isUtf8 fence.literal = true := by
  obtain ⟨front,line,after,rfl,some,ascii,_⟩ := fenced?_eq_some text fence size found
  have whole : IsPart (front ++ [newline] ++ fence.literal ++ (line ++ after)) := by simpa using part
  exact whole.between (.behind_byte _ _ (by decide) _) (.before _ some ascii _)

/-! Code spans. -/

theorem run_split (wanted run : Nat) (front text : Bytes) (marks : List.replicate run backtick <:+ front)
    (enough : wanted ≤ run) : ∃ inner rest,
      front ++ text = inner ++ List.replicate wanted backtick ++ rest ∧ inner.length + wanted = front.length := by
  obtain ⟨inner,rfl⟩ := marks
  refine ⟨inner ++ List.replicate (run - wanted) backtick,text,?_,?_⟩
  · rw [List.append_assoc inner (.replicate (run - wanted) _),List.replicate_append_replicate,Nat.sub_add_cancel enough]
  · simp only [List.length_append,List.length_replicate]
    omega

/-- The backticks that close a span stand directly before the position that is found. -/
theorem closeRun_eq (wanted run : Nat) (front text : Bytes) (marks : List.replicate run backtick <:+ front)
    (found : closeRun wanted run front.length text ≠ 0) :
    ∃ inner rest, front ++ text = inner ++ List.replicate wanted backtick ++ rest ∧
      inner.length + wanted = closeRun wanted run front.length text := by
  induction text generalizing run front with
  | nil =>
    simp only [closeRun] at found ⊢
    split at found
    next => simp at found
    next enough =>
      rw [if_neg enough]
      exact run_split wanted run front [] marks (by omega)
  | cons b text ih =>
    simp only [closeRun] at found ⊢
    split at found
    next enough =>
      rw [if_pos enough]
      exact run_split wanted run front (b :: text) marks enough
    next few =>
      rw [if_neg few]
      have next : List.replicate (if b == backtick then run + 1 else 0) backtick <:+ front ++ [b] := by
        split
        next same =>
          obtain ⟨inner,rfl⟩ := marks
          rw [beq_iff_eq.mp same,List.append_assoc,← List.replicate_succ']
          exact List.suffix_append _ _
        next => exact List.nil_suffix
      have position : front.length + 1 = (front ++ [b]).length := by simp
      rw [position] at found ⊢
      obtain ⟨inner,rest,split,size⟩ := ih _ (front ++ [b]) next found
      exact ⟨inner,rest,by simpa using split,size⟩

theorem codeSpanSize_eq (text : Bytes) (found : codeSpanSize text ≠ 0) :
    ∃ inner rest, text = inner ++ List.replicate (count (· == backtick) text) backtick ++ rest ∧
      inner.length + count (· == backtick) text = codeSpanSize text := by
  simp only [codeSpanSize] at found ⊢
  split at found
  next => simp at found
  next marked =>
    rw [if_neg marked]
    have length : (text.take (count (· == backtick) text)).length = count (· == backtick) text := by
      rw [take_count]
      rfl
    have closes := closeRun_eq (count (· == backtick) text) 0 (text.take (count (· == backtick) text))
      (text.drop (count (· == backtick) text)) List.nil_suffix
    rw [length,List.take_append_drop] at closes
    exact closes found

/-- What stands between the backticks of a code span is valid. -/
theorem codeSpan_inner_valid (text : Bytes) (part : IsPart text) :
    isUtf8 ((text.take (codeSpanSize text - count (· == backtick) text)).drop (count (· == backtick) text)) = true := by
  generalize marks : count (· == backtick) text = run
  by_cases found : codeSpanSize text = 0
  · simp [found]
  · obtain ⟨inner,rest,split,size⟩ := codeSpanSize_eq text found
    rw [marks] at split size
    have first : text.take (codeSpanSize text - run) = inner := by
      have length : codeSpanSize text - run = inner.length := by omega
      rw [length,split,List.append_assoc,List.take_left]
    rw [first]
    -- With nothing between the backticks there is nothing to show.
    by_cases short : inner.length ≤ run
    · rw [List.drop_eq_nil_of_le short]
      rfl
    have opens : inner.take run = text.takeWhile (· == backtick) := by
      rw [← take_count,marks,split,List.append_assoc,List.take_append_of_le_length (by omega)]
    have ascii : ∀ b ∈ inner.take run, b < 0x80 := by
      intro b member
      rw [opens] at member
      exact mem_takeWhile_beq member ▸ by decide
    have positive : 0 < run := by
      apply Nat.pos_of_ne_zero
      rintro rfl
      simp [codeSpanSize,marks] at found
    rw [← List.take_append_drop run inner,List.append_assoc _ _ rest] at split
    rw [split] at part
    refine part.between (.behind [] ?_ ascii _) (.before _ ?_ ?_ _)
    · intro none
      have length := congrArg List.length none
      simp only [List.length_take,List.length_nil] at length
      omega
    · intro none
      have length := congrArg List.length none
      simp only [List.length_replicate,List.length_nil] at length
      omega
    · intro b member
      rw [List.eq_of_mem_replicate member]
      decide

theorem isUtf8_dropSpaces (text : Bytes) (valid : isUtf8 text = true) : isUtf8 (dropSpaces text) = true := by
  have split : text = text.takeWhile (· == space) ++ dropSpaces text := List.takeWhile_append_dropWhile.symm
  have spaces : isUtf8 (text.takeWhile (· == space)) = true :=
    isUtf8_of_ascii _ fun b member => mem_takeWhile_beq member ▸ by decide
  rw [split,isUtf8_append _ _ spaces] at valid
  exact valid

theorem isUtf8_dropFinalSpaces (text : Bytes) (valid : isUtf8 text = true) : isUtf8 (dropFinalSpaces text) = true := by
  have split : text = dropFinalSpaces text ++ (text.reverse.takeWhile (· == space)).reverse := by
    rw [dropFinalSpaces,Bytes.dropRightWhile,← List.reverse_append,List.takeWhile_append_dropWhile,List.reverse_reverse]
  have spaces : ∀ b ∈ (text.reverse.takeWhile (· == space)).reverse, b < 0x80 :=
    fun b member => mem_takeWhile_beq (List.mem_reverse.mp member) ▸ by decide
  rw [split,isUtf8_append_of_ascii _ _ spaces] at valid
  exact valid

theorem codeSpan_valid (text : Bytes) (part : IsPart text) : ∀ fence ∈ (codeSpan text).1, isUtf8 fence.literal = true := by
  have valid := codeSpan_inner_valid text part
  have code := isUtf8_dropFinalSpaces _ (isUtf8_dropSpaces _ valid)
  intro fence member
  simp only [codeSpan] at member
  split at member
  next =>
    split at member
    next info literal read =>
      obtain rfl := List.mem_singleton.mp member
      obtain ⟨front,split,none | seam⟩ := info?_eq_some _ _ _ read
      · simp [none]
      · rw [split,seam.isUtf8,Bool.and_eq_true] at code
        exact code.2
    next =>
      obtain rfl := List.mem_singleton.mp member
      exact code
  next => simp at member

end SqlTidy.Markdown
