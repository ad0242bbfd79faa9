import SqlTidy.Proofs.Markdown.Unfenced
import SqlTidy.Proofs.Sql.Cleaning

/-! Fenced code blocks as they are written. The marker, the info string and the code are put
together to a text; when that text is read the code comes back with the newline before its
closing line, whatever else the code looks like and whatever follows the block. -/
namespace SqlTidy.Markdown
open Ascii

theorem takeWhile_run (test : UInt8 → Bool) (run rest : Bytes) (passes : ∀ b ∈ run, test b = true)
    (stop : ∀ b ∈ rest.head?, test b = false) : (run ++ rest).takeWhile test = run := by
  rw [List.takeWhile_append_of_pos passes]
  cases rest with
  | nil => exact List.append_nil run
  | cons b rest => simp [stop b rfl]

theorem margin_eq_zero (b : UInt8) (text : Bytes) (solid : b ≠ space) : margin (b :: text) = 0 := by
  simp [margin,count,solid]

theorem dropSpaces_eq_self (text : Bytes) (solid : ∀ b ∈ text.head?, b ≠ space) : dropSpaces text = text := by
  cases text with
  | nil => rfl
  | cons b text => simp [dropSpaces,solid b rfl]

theorem lineEnd?_newline (rest : Bytes) : lineEnd? (newline :: rest) = some rest := rfl

theorem info?_line (info rest : Bytes) (oneLine : newline ∉ info)
    (plain : ∀ b ∈ (info ++ newline :: rest).head?, b ≠ openBrace) :
    info? (info ++ newline :: rest) = some (info,newline :: rest) := by
  have body : lineBody (info ++ newline :: rest) = info := by
    refine takeWhile_run _ _ _ (fun b member => ?_) (by simp)
    simpa using fun same : b = newline => oneLine (same ▸ member)
  obtain ⟨b,more,begins⟩ : ∃ b more, info ++ newline :: rest = b :: more :=
    List.exists_cons_of_ne_nil (by simp)
  rw [begins] at plain body ⊢
  have other : (b == openBrace) = false := beq_eq_false_iff_ne.mpr (plain b rfl)
  simp only [info?,other,Bool.false_eq_true,if_false,body]
  rw [← begins,List.drop_left]

theorem normalizeNewlines_cons (b : UInt8) (text : Bytes) (other : b ≠ carriageReturn) :
    normalizeNewlines (b :: text) = b :: normalizeNewlines text := by
  cases text <;> simp [normalizeNewlines,other]

theorem normalizeNewlines_append (front rest : Bytes) (absent : carriageReturn ∉ front) :
    normalizeNewlines (front ++ rest) = front ++ normalizeNewlines rest := by
  induction front with
  | nil => rfl
  | cons b front ih =>
    have other : b ≠ carriageReturn := (List.ne_of_not_mem_cons absent).symm
    rw [List.cons_append,normalizeNewlines_cons b _ other,ih (List.not_mem_of_not_mem_cons absent),List.cons_append]

/-- What begins with a mark is neither a heading nor HTML, neither blank nor indented. -/
theorem block_of_mark (mark : UInt8) (kind : mark = backtick ∨ mark = tilde) (levels : Nat)
    (inner : Bytes → List Item) (text : Bytes) (fence : Fence) (size : Nat)
    (read : fenced? (mark :: text) = some (fence,size)) :
    block levels inner (mark :: text) = ([.fence fence],size) := by
  have other (b : UInt8) (plain : b ≠ backtick ∧ b ≠ tilde) : mark ≠ b := by
    rintro rfl
    exact kind.elim plain.1 plain.2
  have level : headingLevel (mark :: text) = 0 := by
    simp [headingLevel,count,other hash (by decide),other space (by decide)]
  have special : isSpecialHeading (mark :: text) = false := by
    unfold isSpecialHeading
    split
    next a b c _ _ same =>
      obtain ⟨rfl,_⟩ := List.cons.inj same
      simp [other dot (by decide)]
    next => rfl
  have html : startsWith less (mark :: text) = false := by simp [startsWith,other less (by decide)]
  have blank : blankLine (mark :: text) = 0 := by
    simp [blankLine,count,isSpaceOrTab,other space (by decide),other tab (by decide),other newline (by decide)]
  have indent : indentSize (mark :: text) = 0 := by
    simp [indentSize,startsWith,other tab (by decide),Ne.symm (other space (by decide))]
  simp only [block,level,special,html,blank,indent,read,gt_iff_lt,Nat.lt_irrefl,Bool.false_eq_true,Bool.false_and,
    if_false]

/-- A fenced code block to be written: a marker of `width` marks, an info string that stays on
its line and is told from the marker, and code in which the marker does not occur. -/
structure FencedCode where
  mark : UInt8
  kind : mark = backtick ∨ mark = tilde
  width : Nat
  wide : 3 ≤ width
  info : Bytes
  oneLine : newline ∉ info
  begins : ∀ b ∈ info.head?, b ≠ mark ∧ b ≠ space ∧ b ≠ openBrace
  code : Bytes
  unclosed : ¬List.replicate width mark <:+: code

namespace FencedCode

variable (block : FencedCode)

def marker : Bytes := List.replicate block.width block.mark

def text : Bytes := block.marker ++ (block.info ++ newline :: (block.code ++ newline :: (block.marker ++ [newline])))

/-- The block as it is read. -/
def fence : Fence := ⟨unescape block.info,block.code ++ [newline]⟩

theorem mark_solid : block.mark ≠ space ∧ block.mark ≠ newline := by
  rcases block.kind with same | same <;> rw [same] <;> decide

theorem marker_eq_cons : ∃ marks, block.marker = block.mark :: marks := by
  obtain ⟨width,same⟩ := Nat.exists_eq_add_of_le' block.wide
  refine ⟨List.replicate (width + 2) block.mark,?_⟩
  rw [marker,same,List.replicate_succ]

theorem newline_not_mem_marker : newline ∉ block.marker := fun member =>
  block.mark_solid.2 (List.eq_of_mem_replicate member).symm

theorem takeWhile_marker (rest : Bytes) (stop : ∀ b ∈ rest.head?, b ≠ block.mark) :
    (block.marker ++ rest).takeWhile (· == block.mark) = block.marker := by
  refine takeWhile_run _ _ _ ?_ fun b head => by simpa using stop b head
  intro b member
  simpa using List.eq_of_mem_replicate member

theorem opening?_marker (rest : Bytes) : opening? (block.marker ++ (block.info ++ newline :: rest)) =
    some ⟨block.width + block.info.length + 1,block.marker,block.info⟩ := by
  have stop : ∀ b ∈ (block.info ++ newline :: rest).head?, b ≠ block.mark ∧ b ≠ space ∧ b ≠ openBrace := by
    have begins := block.begins
    cases info : block.info with
    | nil =>
      intro b head
      obtain rfl := Option.some.inj head
      exact ⟨block.mark_solid.2.symm,by decide,by decide⟩
    | cons c more =>
      rw [info] at begins
      exact begins
  have run := block.takeWhile_marker _ fun b head => (stop b head).1
  have spaces := dropSpaces_eq_self _ fun b head => (stop b head).2.1
  have read := info?_line block.info rest block.oneLine fun b head => (stop b head).2.2
  have marked : (block.mark == backtick || block.mark == tilde) = true := by simpa using block.kind
  have size : block.marker.length = block.width := List.length_replicate
  have enough := block.wide
  obtain ⟨marks,same⟩ := block.marker_eq_cons
  rw [← size] at enough ⊢
  rw [same] at run enough ⊢
  have margins : margin (block.mark :: marks ++ (block.info ++ newline :: rest)) = 0 :=
    margin_eq_zero _ _ block.mark_solid.1
  have dropped : (block.mark :: marks ++ (block.info ++ newline :: rest)).drop (block.mark :: marks).length =
      block.info ++ newline :: rest := List.drop_left
  rw [opening?,margins,List.drop_zero]
  rw [List.cons_append] at run dropped ⊢
  simp only [run,dropped,spaces,read,marked,enough,decide_true,Bool.and_self,if_true,lineEnd?_newline,Option.map_some]
  congr 2
  simp only [List.length_cons,List.length_append]
  omega

theorem afterClosing?_marker (rest : Bytes) :
    afterClosing? block.marker (block.marker ++ newline :: rest) = some rest := by
  have run := block.takeWhile_marker (newline :: rest) fun b head => by
    obtain rfl := Option.some.inj head
    exact block.mark_solid.2.symm
  obtain ⟨marks,same⟩ := block.marker_eq_cons
  rw [same] at run ⊢
  have margins : margin (block.mark :: marks ++ newline :: rest) = 0 := margin_eq_zero _ _ block.mark_solid.1
  simp only [afterClosing?,margins,List.drop_zero,run,beq_self_eq_true,if_true,List.drop_left]
  exact lineEnd?_newline rest

/-- A line that does not hold the marker does not close the block. -/
theorem afterClosing?_other (front rest : Bytes) (absent : ¬block.marker <:+: front) :
    afterClosing? block.marker (front ++ newline :: rest) = none := by
  have line := block.newline_not_mem_marker
  obtain ⟨marks,same⟩ := block.marker_eq_cons
  rw [same] at absent line ⊢
  simp only [afterClosing?]
  rw [if_neg]
  intro closes
  apply absent
  have marked : block.mark :: marks <+: (front ++ newline :: rest).drop (margin (front ++ newline :: rest)) :=
    beq_iff_eq.mp closes ▸ List.takeWhile_prefix _
  obtain ⟨more,split⟩ := marked
  -- The margin and the marker are on one line, so that they end before the newline.
  have outside : newline ∉ (front ++ newline :: rest).take (margin (front ++ newline :: rest)) ++ block.mark :: marks := by
    rw [List.mem_append,not_or]
    refine ⟨fun member => ?_,line⟩
    have blank : newline = space := mem_take_margin member
    exact absurd blank (by decide)
  have inside := isPrefixOf_append_cons _ front newline rest outside
  rw [List.isPrefixOf_iff_prefix.mpr ⟨more,by rw [List.append_assoc,split,List.take_append_drop]⟩] at inside
  exact (List.suffix_append _ _).isInfix.trans (List.isPrefixOf_iff_prefix.mp inside.symm).isInfix

theorem upToClosing?_cons (b : UInt8) (text : Bytes) (fresh : Bool)
    (stays : afterClosing? block.marker (b :: text) = none) :
    upToClosing? block.marker fresh (b :: text) =
      (upToClosing? block.marker (b == newline) text).map fun (code,after) => (b :: code,after) := by
  rw [upToClosing?]
  cases fresh with
  | true => simp only [if_true,stays]
  | false => rfl

theorem upToClosing?_marker (rest : Bytes) :
    upToClosing? block.marker true (block.marker ++ newline :: rest) = some ([],rest) := by
  have closes := block.afterClosing?_marker rest
  obtain ⟨marks,same⟩ := block.marker_eq_cons
  rw [same,List.cons_append] at closes ⊢
  simp only [upToClosing?,if_true,closes]

/-- Code without the marker is read through to the closing line. -/
theorem upToClosing?_code (code rest : Bytes) (fresh : Bool) (absent : ¬block.marker <:+: code) :
    upToClosing? block.marker fresh (code ++ newline :: (block.marker ++ newline :: rest)) =
      some (code ++ [newline],rest) := by
  induction code generalizing fresh with
  | nil =>
    rw [List.nil_append,block.upToClosing?_cons _ _ _ (block.afterClosing?_other [] _ absent)]
    exact congrArg (Option.map _) (block.upToClosing?_marker rest)
  | cons b code ih =>
    have later : ¬block.marker <:+: code := fun inside => absent (inside.trans (List.suffix_cons b code).isInfix)
    have stays := block.afterClosing?_other (b :: code) (block.marker ++ newline :: rest) absent
    rw [List.cons_append] at stays ⊢
    rw [block.upToClosing?_cons _ _ _ stays,ih _ later]
    rfl

theorem fenced?_text (rest : Bytes) : fenced? (block.text ++ rest) = some (block.fence,block.text.length) := by
  have whole : block.text ++ rest = block.marker ++ (block.info ++ newline :: (block.code ++ newline ::
      (block.marker ++ newline :: rest))) := by simp [text]
  have opens := block.opening?_marker (block.code ++ newline :: (block.marker ++ newline :: rest))
  have behind : (block.text ++ rest).drop (block.width + block.info.length + 1) =
      block.code ++ newline :: (block.marker ++ newline :: rest) := by
    have line : block.text ++ rest = (block.marker ++ block.info ++ [newline]) ++
        (block.code ++ newline :: (block.marker ++ newline :: rest)) := by simp [text]
    rw [line]
    apply List.drop_left'
    simp [marker,Nat.add_assoc]
  rw [← whole] at opens
  simp only [fenced?,opens,behind,block.upToClosing?_code block.code rest true block.unclosed,Option.map_some]
  simp [fence]

theorem text_eq_cons : ∃ more, block.text = block.mark :: more := by
  obtain ⟨marks,same⟩ := block.marker_eq_cons
  rw [text,same]
  exact ⟨_,rfl⟩

theorem block_text (levels : Nat) (inner : Bytes → List Item) (rest : Bytes) :
    Markdown.block levels inner (block.text ++ rest) = ([.fence block.fence],block.text.length) := by
  have read := block.fenced?_text rest
  obtain ⟨more,same⟩ := block.text_eq_cons
  generalize block.text.length = size at read ⊢
  rw [same,List.cons_append] at read ⊢
  exact block_of_mark block.mark block.kind levels inner _ block.fence size read

theorem pieces_text (levels : Nat) (rest : Bytes) : ∃ more,
    pieces (levels + 1) (block.text ++ rest) = .fence block.fence :: more := by
  have read := block.block_text levels (pieces levels) rest
  obtain ⟨front,same⟩ := block.text_eq_cons
  generalize block.text.length = size at read
  rw [same,List.cons_append] at read ⊢
  rw [pieces,List.length_cons,blockSequence,read]
  exact ⟨_,rfl⟩

/-- A document that begins with a block has it as its first fence. -/
theorem fences_text (rest : Bytes) (absent : carriageReturn ∉ block.text) :
    ∃ more, fences (block.text ++ rest) = block.fence :: more := by
  obtain ⟨more,read⟩ := block.pieces_text 63 (normalizeNewlines rest)
  rw [fences,normalizeNewlines_append _ _ absent]
  simp only [maxLevels,read,piecesFences]
  exact ⟨_,rfl⟩

end FencedCode
end SqlTidy.Markdown
