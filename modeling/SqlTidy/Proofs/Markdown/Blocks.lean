import Mathlib.Logic.Relation
import SqlTidy.Markdown.Document
import SqlTidy.Proofs.Markdown.Lines
import SqlTidy.Proofs.Markdown.Spans

/-! Block structure, seen from the code it finds. A text is read by cutting out pieces of it,
by gathering the lines of a list item and by taking the marks off a quote; all code of a
document is found in a text that is reached in this way. What these three steps keep thus
holds wherever code is found, and so the code of a valid document is valid. -/
namespace SqlTidy.Markdown
open Ascii Utf8

/-- A text that is read in the course of reading another. -/
inductive Yields (text : Bytes) : Bytes → Prop where
  | piece {part : Bytes} (inside : part <:+: text) : Yields text part
  | item (kind : ListKind) (state : ListState) (g : Gathered) (read : item? kind state text = some g) : Yields text g.raw
  | quote (fuel : Nat) (marked : quoteSize text > 0) : Yields text (quoteText fuel text).1

/-- A text that is reached by reading, however deep it lies. -/
def Reaches (text piece : Bytes) : Prop := Relation.ReflTransGen Yields text piece

section Reading

variable {whole : Bytes}

namespace Reaches

variable {text : Bytes}

theorem step {piece : Bytes} (reaches : Reaches whole text) (last : Yields text piece) : Reaches whole piece :=
  Relation.ReflTransGen.tail reaches last

theorem within {piece : Bytes} (reaches : Reaches whole text) (inside : piece <:+: text) : Reaches whole piece :=
  reaches.step (.piece inside)

theorem keeps (reaches : Reaches whole text) (kept : Bytes → Prop)
    (step : ∀ text piece, Yields text piece → kept text → kept piece) (holds : kept whole) : kept text := by
  induction reaches with
  | refl => exact holds
  | tail _ last ih => exact step _ _ last ih

end Reaches

/-- An item that comes to light in reading a text. -/
def Item.StemsFrom (whole : Bytes) : Item → Prop
  | .fence code => ∃ text size, Reaches whole text ∧ fenced? text = some (code,size)
  | .text piece => Reaches whole piece
  | .caption _ piece => Reaches whole piece
  | .definition _ => True

theorem ite_stems {condition : Prop} [Decidable condition] {yes no : List Item × Nat}
    (first : condition → ∀ item ∈ yes.1, item.StemsFrom whole)
    (second : ¬condition → ∀ item ∈ no.1, item.StemsFrom whole) :
    ∀ item ∈ (if condition then yes else no).1, item.StemsFrom whole := by
  split
  next holds => exact first holds
  next fails => exact second fails

/-! Paragraphs, headings and tables hand on pieces of their text. -/

theorem paragraphItem_stems (piece text : Bytes) (reaches : Reaches whole text) (inside : piece <:+: text) :
    ∀ item ∈ paragraphItem piece, item.StemsFrom whole := by
  intro item member
  simp only [paragraphItem] at member
  split at member
  next => simp at member
  next =>
    obtain rfl := List.mem_singleton.mp member
    refine reaches.within (((dropFinalSpaces_isPrefix _).isInfix.trans ?_).trans inside)
    split
    next => exact (List.dropLast_prefix _).isInfix.trans (dropSpaces_suffix piece).isInfix
    next => exact (dropSpaces_suffix piece).isInfix

theorem endParagraph_stems (text : Bytes) (reaches : Reaches whole text) (here size : Nat) :
    ∀ item ∈ (endParagraph text here size).1, item.StemsFrom whole :=
  paragraphItem_stems _ text reaches (List.take_prefix _ _).isInfix

theorem underlined_stems (text : Bytes) (reaches : Reaches whole text) (previous here : Nat) :
    ∀ item ∈ (underlined text previous here).1, item.StemsFrom whole := by
  intro item member
  simp only [underlined] at member
  rcases List.mem_append.mp member with before | title
  · exact paragraphItem_stems _ text reaches (List.take_prefix _ _).isInfix item before
  · obtain rfl := List.mem_singleton.mp title
    have title : (text.take (here - 1)).drop previous <:+: text :=
      (List.drop_suffix _ _).isInfix.trans (List.take_prefix _ _).isInfix
    exact reaches.within (((dropFinalSpaces_isPrefix _).isInfix.trans (dropSpaces_suffix _).isInfix).trans title)

theorem dropHashes_suffix (text : Bytes) : dropHashes text <:+ text := by
  induction text with
  | nil => exact List.suffix_rfl
  | cons b text ih =>
    simp only [dropHashes]
    split
    next => exact ih.trans (List.suffix_cons b text)
    next => exact List.suffix_rfl

theorem headingTitle_isPrefix (line : Bytes) : headingTitle line <+: line := by
  have kept : (dropHashes line.reverse).reverse <+: line := by
    simpa using List.reverse_prefix.mpr (dropHashes_suffix line.reverse)
  exact (dropFinalSpaces_isPrefix _).trans kept

theorem heading_within (level : Nat) (text : Bytes) : (heading level text).1 <:+: text := by
  have line (start : Nat) : lineBody (text.drop start) <:+: text :=
    (List.takeWhile_prefix _).isInfix.trans (List.drop_suffix _ _).isInfix
  simp only [heading]
  split
  next title size found =>
    have short : title <+: lineBody (text.drop (level + count (· == space) (text.drop level))) := by
      simp only [beforeId?] at found
      split at found
      next => simp at found
      next =>
        split at found
        next => simp at found
        next =>
          simp only [Option.some.injEq,Prod.mk.injEq] at found
          exact found.1 ▸ (dropFinalSpaces_isPrefix _).trans (List.take_prefix _ _)
    exact ((headingTitle_isPrefix title).trans short).isInfix.trans (line _)
  next => exact (headingTitle_isPrefix _).isInfix.trans (line _)

theorem headingPieces_stems (level : Nat) (text : Bytes) (reaches : Reaches whole text) :
    ∀ item ∈ headingPieces (heading level text).1, item.StemsFrom whole := by
  intro item member
  simp only [headingPieces] at member
  split at member
  next => simp at member
  next =>
    obtain rfl := List.mem_singleton.mp member
    exact reaches.within (heading_within level text)

theorem cellRest_append (odd : Bool) (text : Bytes) : (cellRest odd text).1 ++ (cellRest odd text).2 = text := by
  induction text generalizing odd with
  | nil => rfl
  | cons b text ih =>
    simp only [cellRest]
    split
    next => rfl
    next => exact congrArg (b :: ·) (ih _)

theorem rowCells_within (columns spanned : Nat) (text : Bytes) : ∀ cell ∈ rowCells columns spanned text, cell <:+: text := by
  induction columns generalizing spanned text with
  | zero => simp [rowCells]
  | succ columns ih =>
    intro cell member
    simp only [rowCells] at member
    split at member
    next => simp at member
    next =>
      have start := dropSpaces_suffix text
      generalize codeSpanSize (dropSpaces text) - 1 = lead at member
      have read := cellRest_append false ((dropSpaces text).drop lead)
      have later : ∀ bars, ((cellRest false ((dropSpaces text).drop lead)).2).drop bars <:+: text := by
        intro bars
        have after : (cellRest false ((dropSpaces text).drop lead)).2 <:+ (dropSpaces text).drop lead := ⟨_,read⟩
        exact (((List.drop_suffix bars _).trans after).trans ((List.drop_suffix _ _).trans start)).isInfix
      have whole : (dropSpaces text).take lead ++ (cellRest false ((dropSpaces text).drop lead)).1 <+: dropSpaces text :=
        ⟨_,by rw [List.append_assoc,read,List.take_append_drop]⟩
      split at member
      next => exact (ih _ _ cell member).trans (later _)
      next =>
        rcases List.mem_cons.mp member with rfl | rest
        · exact ((dropFinalSpaces_isPrefix _).trans whole).isInfix.trans start.isInfix
        · exact (ih _ _ cell rest).trans (later _)

theorem row_within (columns : Nat) (line : Bytes) : ∀ cell ∈ row columns line, cell <:+: line := by
  intro cell member
  exact (rowCells_within _ _ _ cell member).trans (List.dropWhile_suffix _).isInfix

theorem withoutId_isPrefix (caption : Bytes) : withoutId caption <+: caption := by
  simp only [withoutId]
  split
  next => exact List.prefix_rfl
  next =>
    split
    next => exact List.take_prefix _ _
    next => exact List.prefix_rfl

theorem throughBlankLine_isPrefix (text : Bytes) : throughBlankLine text <+: text := by
  have kept := List.takeWhile_prefix (l := lines text) fun line => blankLine line == 0
  simp only [throughBlankLine]
  generalize (lines text).takeWhile (fun line => blankLine line == 0) = first at kept
  obtain ⟨later,split⟩ := kept
  have whole := flatten_lines text
  rw [← split,List.flatten_append] at whole
  rw [← split,List.drop_left]
  cases later with
  | nil => exact ⟨[],by simpa using whole⟩
  | cons line more => exact ⟨more.flatten,by simpa using whole⟩

theorem tableHead?_header (text : Bytes) (head : TableHead) (found : tableHead? text = some head) :
    head.header <+: text := by
  simp only [tableHead?] at found
  split at found
  next => simp at found
  next =>
    -- Without a header the first line is the ruler.
    split at found
    next =>
      split at found
      next => simp at found
      next =>
        obtain ⟨rest,_,rfl⟩ := Option.map_eq_some_iff.mp found
        exact List.nil_prefix
    next =>
      split at found
      next => simp at found
      next =>
        obtain ⟨rest,_,rfl⟩ := Option.map_eq_some_iff.mp found
        exact List.take_prefix _ _

theorem table?_within (text : Bytes) (table : Table) (found : table? text = some table) :
    (∀ cell ∈ table.cells, cell <:+: text) ∧ ∀ caption ∈ table.caption, caption <:+: text := by
  simp only [table?] at found
  split at found
  next => simp at found
  next head read =>
    have header := tableHead?_header text head read
    generalize rowLines : (lines (text.drop head.size)).takeWhile (·.contains bar) = rows at found
    have rowsWithin : ∀ line ∈ rows, line <:+: text := by
      intro line member
      rw [← rowLines] at member
      exact (line_within _ line ((List.takeWhile_prefix _).subset member)).trans (List.drop_suffix _ _).isInfix
    have cells : ∀ cell ∈ row head.columns head.header ++
        (rows.filter fun line => !isFooter line).flatMap (row head.columns), cell <:+: text := by
      intro cell member
      rcases List.mem_append.mp member with first | later
      · exact (row_within _ _ cell first).trans header.isInfix
      · obtain ⟨line,among,inside⟩ := List.mem_flatMap.mp later
        exact (row_within _ _ cell inside).trans (rowsWithin line (List.mem_filter.mp among).1)
    split at found
    next =>
      obtain rfl := Option.some.inj found
      refine ⟨cells,?_⟩
      intro caption same
      obtain rfl := Option.some.inj same
      exact ((withoutId_isPrefix _).trans (throughBlankLine_isPrefix _)).isInfix.trans (List.drop_suffix _ _).isInfix
    next =>
      obtain rfl := Option.some.inj found
      exact ⟨cells,by simp⟩

theorem tablePieces_stems (levels : Nat) (text : Bytes) (reaches : Reaches whole text) (table : Table)
    (found : table? text = some table) : ∀ item ∈ tablePieces levels table, item.StemsFrom whole := by
  obtain ⟨cells,caption⟩ := table?_within text table found
  intro item member
  simp only [tablePieces,List.mem_append,List.mem_map] at member
  rcases member with ⟨cell,among,rfl⟩ | ⟨title,among,rfl⟩
  · exact reaches.within (cells cell among)
  · exact reaches.within (caption title (by simpa using among))

theorem fenced_stems (text : Bytes) (reaches : Reaches whole text) (other : List Item × Nat)
    (stems : ∀ item ∈ other.1, item.StemsFrom whole) :
    ∀ item ∈ (match fenced? text with | some (fence,size) => ([Item.fence fence],size) | none => other).1,
      item.StemsFrom whole := by
  split
  next fence size found =>
    intro item member
    obtain rfl := List.mem_singleton.mp member
    exact ⟨text,size,reaches,found⟩
  next => exact stems

theorem table_stems (levels : Nat) (text : Bytes) (reaches : Reaches whole text) (other : List Item × Nat)
    (stems : ∀ item ∈ other.1, item.StemsFrom whole) :
    ∀ item ∈ (match table? text with | some table => (tablePieces levels table,table.size) | none => other).1,
      item.StemsFrom whole := by
  split
  next table found => exact tablePieces_stems levels text reaches table found
  next => exact stems

section Blocks

variable (inner : Bytes → List Item) (stems : ∀ text, Reaches whole text → ∀ item ∈ inner text, item.StemsFrom whole)
include stems

theorem itemPieces_stems (g : Gathered) (reaches : Reaches whole g.raw) :
    ∀ item ∈ itemPieces inner g, item.StemsFrom whole := by
  have start : Reaches whole (g.raw.take g.nested) := reaches.within (List.take_prefix _ _).isInfix
  have nested : Reaches whole (g.raw.drop g.nested) := reaches.within (List.drop_suffix _ _).isInfix
  intro item member
  simp only [itemPieces] at member
  split at member
  next =>
    split at member
    next => exact (List.mem_append.mp member).elim (stems _ start item) (stems _ nested item)
    next => exact stems _ reaches item member
  next =>
    split at member
    next =>
      rcases List.mem_cons.mp member with rfl | later
      · exact start
      · exact stems _ nested item later
    next =>
      obtain rfl := List.mem_singleton.mp member
      exact reaches

theorem listPieces_stems (kind : ListKind) (fuel : Nat) (state : ListState) (text : Bytes) (reaches : Reaches whole text) :
    ∀ item ∈ (listPieces inner kind fuel state text).1, item.StemsFrom whole := by
  induction fuel generalizing state text with
  | zero => simp [listPieces]
  | succ fuel ih =>
    simp only [listPieces]
    split
    next => simp
    next g read =>
      have first := itemPieces_stems inner stems g (reaches.step (.item kind state g read))
      split
      next => exact first
      next =>
        intro item member
        rcases List.mem_append.mp member with here | later
        · exact first item here
        · exact ih _ _ (reaches.within (List.drop_suffix _ _).isInfix) item later

theorem list_stems (kind : ListKind) (text : Bytes) (reaches : Reaches whole text) :
    ∀ item ∈ (list inner kind text).1, item.StemsFrom whole :=
  listPieces_stems inner stems kind _ _ text reaches

theorem definitionsAt_stems (text : Bytes) (reaches : Reaches whole text) (start : Nat) :
    ∀ item ∈ (definitionsAt inner text start).1, item.StemsFrom whole :=
  list_stems inner stems .definitions _ (reaches.within (List.drop_suffix _ _).isInfix)

theorem paragraphFrom_stems (text : Bytes) (reaches : Reaches whole text) (fuel previous here : Nat) :
    ∀ item ∈ (paragraphFrom inner text fuel previous here).1, item.StemsFrom whole := by
  have ends := endParagraph_stems text reaches
  have definitions := definitionsAt_stems inner stems text reaches
  induction fuel generalizing previous here with
  | zero => exact ends here 0
  | succ fuel ih =>
    simp only [paragraphFrom]
    split
    next => exact ends here 0
    next =>
      split
      next definition _ =>
        intro item member
        rcases List.mem_cons.mp member with rfl | before
        · trivial
        · exact ends here definition.size item before
      next =>
        split
        next =>
          split
          next =>
            split
            next => exact definitions previous
            next => exact ends here _
          next => exact ends here _
        next =>
          split
          next => exact underlined_stems text reaches previous here
          next =>
            split
            next => exact ends here 0
            next =>
              split
              next => exact definitions previous
              next => exact ih _ _

theorem block_stems (levels : Nat) (text : Bytes) (reaches : Reaches whole text) :
    ∀ item ∈ (block levels inner text).1, item.StemsFrom whole := by
  have nothing (size : Nat) : ∀ item ∈ (([],size) : List Item × Nat).1, item.StemsFrom whole := by simp
  have lists (kind : ListKind) := list_stems inner stems kind text reaches
  have headings (level : Nat) := headingPieces_stems level text reaches
  unfold block
  -- Of all the tests only the one for a quote matters for what it guards.
  refine ite_stems (fun _ => headings _) fun _ => ite_stems (fun _ => headings _) fun _ =>
    ite_stems (fun _ => nothing _) fun _ => ite_stems (fun _ => nothing _) fun _ =>
    ite_stems (fun _ => nothing _) fun _ => fenced_stems text reaches _ ?_
  refine ite_stems (fun _ => nothing _) fun _ =>
    ite_stems (fun marked => stems _ (reaches.step (.quote _ marked))) fun _ => table_stems levels text reaches _ ?_
  exact ite_stems (fun _ => lists _) fun _ => ite_stems (fun _ => lists _) fun _ => ite_stems (fun _ => lists _) fun _ =>
    ite_stems (fun _ => nothing _) fun _ => paragraphFrom_stems inner stems text reaches _ _ _

theorem blockSequence_stems (levels fuel : Nat) (text : Bytes) (reaches : Reaches whole text) :
    ∀ item ∈ blockSequence levels inner fuel text, item.StemsFrom whole := by
  induction fuel generalizing text with
  | zero => simp [blockSequence]
  | succ fuel ih =>
    simp only [blockSequence]
    split
    next => simp
    next =>
      intro item member
      rcases List.mem_append.mp member with here | later
      · exact block_stems inner stems levels text reaches item here
      · exact ih _ (reaches.within (List.drop_suffix _ _).isInfix) item later

end Blocks

theorem pieces_stems (levels : Nat) (text : Bytes) (reaches : Reaches whole text) :
    ∀ item ∈ pieces levels text, item.StemsFrom whole := by
  induction levels generalizing text with
  | zero => simp [pieces]
  | succ levels ih => exact blockSequence_stems (pieces levels) ih levels _ text reaches

/-! Documents. -/

/-- A fence that is a fenced code block or a code span of some text reached. -/
def Fence.StemsFrom (whole : Bytes) (fence : Fence) : Prop :=
  ∃ text, Reaches whole text ∧ ((∃ size, fenced? text = some (fence,size)) ∨ fence ∈ (codeSpan text).1)

theorem spans_stems (known : List Bytes) (levels : Nat) (inLink : Bool) (text : Bytes) (reaches : Reaches whole text) :
    ∀ fence ∈ spans known levels inLink text, fence.StemsFrom whole := by
  intro fence member
  obtain ⟨piece,inside,span⟩ := spans_foundIn known levels inLink text fence member
  exact ⟨piece,reaches.within inside,.inr span⟩

theorem piecesFences_stems (all before : List Bytes) (items : List Item) (stems : ∀ item ∈ items, item.StemsFrom whole) :
    ∀ fence ∈ piecesFences all before items, fence.StemsFrom whole := by
  induction items generalizing before with
  | nil => simp [piecesFences]
  | cons item items ih =>
    obtain ⟨first,rest⟩ := List.forall_mem_cons.mp stems
    cases item with
    | fence code =>
      obtain ⟨text,size,reaches,found⟩ := first
      exact List.forall_mem_cons.mpr ⟨⟨text,reaches,.inl ⟨size,found⟩⟩,ih before rest⟩
    | text piece => exact List.forall_mem_append.mpr ⟨spans_stems _ _ _ piece first,ih before rest⟩
    | caption levels piece => exact List.forall_mem_append.mpr ⟨spans_stems _ _ _ piece first,ih before rest⟩
    | definition id => exact ih _ rest

end Reading

theorem fences_stems (document : Bytes) : ∀ fence ∈ fences document, fence.StemsFrom (normalizeNewlines document) :=
  piecesFences_stems _ _ _ (pieces_stems maxLevels _ .refl)

/-! Valid documents. -/

theorem Yields.part (text piece : Bytes) (yields : Yields text piece) (part : IsPart text) : IsPart piece := by
  cases yields with
  | piece inside => exact part.within inside
  | item kind state g read => exact item?_part kind state text part g read
  | quote fuel marked => exact quoteText_part fuel text part marked

theorem normalizeNewlines_edit (text : Bytes) : AsciiEdit text (normalizeNewlines text) := by
  have small : carriageReturn < 0x80 := by decide
  have line : newline < 0x80 := by decide
  fun_induction normalizeNewlines text with
  | case1 => exact .nil
  | case2 b mark => exact .change b newline (beq_iff_eq.mp mark ▸ small) line .nil
  | case3 b _ => exact .keep b .nil
  | case4 b c rest mark pair ih => exact .drop b (beq_iff_eq.mp mark ▸ small) (beq_iff_eq.mp pair ▸ .keep newline ih)
  | case5 b c rest mark _ ih => exact .change b newline (beq_iff_eq.mp mark ▸ small) line ih
  | case6 b c rest _ ih => exact .keep b ih

/-- The code of every fenced code block of a valid document is valid. -/
theorem fences_valid (document : Bytes) (valid : isUtf8 document = true) :
    ∀ fence ∈ fences document, isUtf8 fence.literal = true := by
  have normal : isUtf8 (normalizeNewlines document) = true := (normalizeNewlines_edit document).valid _ _ valid
  intro fence member
  obtain ⟨text,reaches,found⟩ := fences_stems document fence member
  have part : IsPart text := reaches.keeps IsPart Yields.part (isStart_of_valid _ normal).isPart
  rcases found with ⟨size,block⟩ | span
  · exact fenced?_valid text part fence size block
  · exact codeSpan_valid text part fence span

end SqlTidy.Markdown
