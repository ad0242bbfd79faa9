import SqlTidy.Proofs.Text.Glyphs
import SqlTidy.Sql.Clean
import SqlTidy.Text.Ascii
import Mathlib.Data.List.DropRight

/-! Cleaning piece by piece. A space divides a text into pieces that are cleaned by
themselves: white space is collapsed on either side, and no marker goes across. What is
left has no newline, whatever the text had. -/
namespace SqlTidy
open Utf8

theorem glyphs_trim (text : Bytes) : glyphs (trim text) = trimRow (glyphs text) := by
  have front := List.takeWhile_append_dropWhile (p := Glyph.isBlank) (l := glyphs text)
  have back := List.rdropWhile_append_rtakeWhile (p := Glyph.isBlank) (l := (glyphs text).dropWhile Glyph.isBlank)
  refine glyphs_spell_piece ((glyphs text).takeWhile Glyph.isBlank) _
    (((glyphs text).dropWhile Glyph.isBlank).rtakeWhile Glyph.isBlank) text ?_
  rw [List.append_assoc]
  exact ((congrArg _ back).trans front).symm

theorem dropWhile_append_neg (test : Glyph → Bool) (left : List Glyph) (g : Glyph) (right : List Glyph)
    (fails : test g = false) : (left ++ g :: right).dropWhile test = left.dropWhile test ++ g :: right := by
  rw [List.dropWhile_append,List.dropWhile_cons_of_neg (by simp [fails])]
  split
  next none => rw [List.isEmpty_iff.mp none,List.nil_append]
  next => rfl

theorem dropWhile_run (test : Glyph → Bool) (run rest : List Glyph) (passes : ∀ g ∈ run, test g = true)
    (stop : ∀ g ∈ rest.head?, test g = false) : (run ++ rest).dropWhile test = rest := by
  rw [List.dropWhile_append_of_pos passes]
  cases rest with
  | nil => rfl
  | cons g rest => exact List.dropWhile_cons_of_neg (by simp [stop g rfl])

theorem rdropWhile_append_neg (test : Glyph → Bool) (left : List Glyph) (g : Glyph) (right : List Glyph)
    (fails : test g = false) : (left ++ g :: right).rdropWhile test = left ++ g :: right.rdropWhile test := by
  rw [List.rdropWhile,List.reverse_append,List.reverse_cons,List.append_assoc,List.singleton_append,
    dropWhile_append_neg test _ g _ fails]
  simp [List.rdropWhile]

section Trimmed

variable {α : Type} (test : α → Bool) (list : List α)

theorem trimmed_begins : ∀ x ∈ ((list.dropWhile test).rdropWhile test).head?, test x = false := by
  intro x head
  obtain ⟨more,split⟩ := List.rdropWhile_prefix test (l := list.dropWhile test)
  have fails := List.head?_dropWhile_not test list
  rw [← split,List.head?_append,Option.mem_def.mp head] at fails
  exact fails

theorem trimmed_ends : ∀ x ∈ ((list.dropWhile test).rdropWhile test).getLast?, test x = false := by
  intro x last
  have some : (list.dropWhile test).rdropWhile test ≠ [] := fun none => by simp [none] at last
  have fails := List.rdropWhile_last_not test (list.dropWhile test) some
  rw [List.getLast_of_getLast?_eq_some last] at fails
  exact Bool.not_eq_true _ ▸ fails

end Trimmed

theorem dropWhile_append_blanks (row blanks : List Glyph) (blank : ∀ g ∈ blanks, g.isBlank = true) :
    (row ++ blanks).dropWhile Glyph.isBlank =
      if (row.dropWhile Glyph.isBlank).isEmpty then [] else row.dropWhile Glyph.isBlank ++ blanks := by
  rw [List.dropWhile_append,List.dropWhile_eq_nil_iff.mpr blank]

theorem trimRow_blanks (left row right : List Glyph) (blankLeft : ∀ g ∈ left, g.isBlank = true)
    (blankRight : ∀ g ∈ right, g.isBlank = true) : trimRow (left ++ (row ++ right)) = trimRow row := by
  rw [trimRow,List.dropWhile_append_of_pos blankLeft,dropWhile_append_blanks row right blankRight]
  split
  next none => rw [trimRow,List.isEmpty_iff.mp none]
  next =>
    have back : ∀ g ∈ right.reverse, g.isBlank = true := fun g member => blankRight g (List.mem_reverse.mp member)
    rw [List.reverse_append,List.dropWhile_append_of_pos back,trimRow]

/-- Trimming stops at a glyph that is not blank, from either side. -/
theorem trimRow_append (left : List Glyph) (g : Glyph) (right : List Glyph) (solid : g.isBlank = false) :
    trimRow (left ++ g :: right) =
      left.dropWhile Glyph.isBlank ++ g :: right.rdropWhile Glyph.isBlank := by
  rw [trimRow,dropWhile_append_neg _ left g right solid]
  exact rdropWhile_append_neg _ _ g right solid

section Collapse

/-- A blank is kept, as a space, where no other follows. -/
theorem collapse_cons (g : Glyph) (row : List Glyph) :
    collapse (g :: row) =
      if g.isBlank then (if row.head?.any Glyph.isBlank then [] else [Glyph.ofChar ' ']) ++ collapse row
      else g :: collapse row := by
  cases row with
  | nil => simp [collapse]
  | cons next row => cases blank : next.isBlank <;> simp [collapse,blank]

theorem collapse_append (left : List Glyph) (g : Glyph) (right : List Glyph) (solid : g.isBlank = false) :
    collapse (left ++ g :: right) = collapse left ++ collapse (g :: right) := by
  induction left with
  | nil => rfl
  | cons first left ih =>
    have same : (left ++ g :: right).head?.any Glyph.isBlank = left.head?.any Glyph.isBlank := by
      cases left with
      | nil => simp [solid]
      | cons => rfl
    rw [List.cons_append,collapse_cons,collapse_cons,same,ih]
    split <;> simp

theorem collapse_solid (left right : List Glyph) (solid : ∀ g ∈ left, g.isBlank = false) :
    collapse (left ++ right) = left ++ collapse right := by
  induction left with
  | nil => rfl
  | cons g left ih =>
    obtain ⟨first,rest⟩ := List.forall_mem_cons.mp solid
    simp [collapse_cons,first,ih rest]

theorem mem_collapse (row : List Glyph) (g : Glyph) (member : g ∈ collapse row) :
    g = Glyph.ofChar ' ' ∨ g ∈ row ∧ g.isBlank = false := by
  induction row with
  | nil => simp [collapse] at member
  | cons first row ih =>
    have later (inside : g ∈ collapse row) : g = Glyph.ofChar ' ' ∨ g ∈ first :: row ∧ g.isBlank = false :=
      (ih inside).imp_right fun ⟨inside,solid⟩ => ⟨List.mem_cons_of_mem first inside,solid⟩
    rw [collapse_cons] at member
    split at member
    next =>
      rcases List.mem_append.mp member with space | inside
      · left
        split at space <;> simp_all
      · exact later inside
    next solid =>
      rcases List.mem_cons.mp member with rfl | inside
      · exact .inr ⟨List.mem_cons_self,by simpa using solid⟩
      · exact later inside

theorem collapse_concat_blank (row : List Glyph) (g : Glyph) (blank : g.isBlank = true) :
    ∃ front, collapse (row ++ [g]) = front ++ [Glyph.ofChar ' '] := by
  induction row with
  | nil => exact ⟨[],by simp [collapse_cons,blank,collapse]⟩
  | cons first row ih =>
    obtain ⟨front,rest⟩ := ih
    rw [List.cons_append,collapse_cons,rest]
    split
    next => exact ⟨_ ++ front,(List.append_assoc _ _ _).symm⟩
    next => exact ⟨first :: front,rfl⟩

end Collapse

section Erase

theorem isPrefixOf_append_cons (marker text : Bytes) (b : UInt8) (rest : Bytes) (outside : b ∉ marker) :
    marker.isPrefixOf (text ++ b :: rest) = marker.isPrefixOf text := by
  induction marker generalizing text with
  | nil => simp
  | cons first marker ih =>
    have other : first ≠ b := fun same => outside (by simp [same])
    have later : b ∉ marker := fun member => outside (List.mem_cons_of_mem first member)
    cases text with
    | nil => simp [List.isPrefixOf,other]
    | cons c text => simp [List.isPrefixOf,ih text later]

/-- An occurrence of a marker does not go across a byte that is not in it. -/
theorem eraseFrom_append (marker : Bytes) (some : marker ≠ []) (b : UInt8) (outside : b ∉ marker) (rest : Bytes)
    (skip : Nat) (text : Bytes) (inside : skip ≤ text.length) :
    eraseFrom marker skip (text ++ b :: rest) = eraseFrom marker skip text ++ b :: erase marker rest := by
  induction text generalizing skip with
  | nil =>
    obtain rfl : skip = 0 := Nat.le_zero.mp inside
    have apart := isPrefixOf_append_cons marker [] b rest outside
    simp only [List.nil_append] at apart ⊢
    have empty : marker.isPrefixOf [] = false := by
      cases marker with
      | nil => exact absurd rfl some
      | cons => rfl
    simp [eraseFrom,apart,empty,erase]
  | cons c text ih =>
    cases skip with
    | succ skip => exact ih skip (Nat.le_of_succ_le_succ inside)
    | zero =>
      have same := isPrefixOf_append_cons marker (c :: text) b rest outside
      simp only [List.cons_append] at same ⊢
      rw [eraseFrom,eraseFrom,same]
      split
      next start =>
        have fits := (List.isPrefixOf_iff_prefix.mp start).length_le
        simp only [List.length_cons] at fits
        exact ih (marker.length - 1) (by omega)
      next => rw [ih 0 (Nat.zero_le _),List.cons_append]

theorem eraseFrom_sublist (marker : Bytes) (skip : Nat) (text : Bytes) : (eraseFrom marker skip text).Sublist text := by
  induction text generalizing skip with
  | nil => cases skip <;> exact List.Sublist.slnil
  | cons b text ih =>
    cases skip with
    | succ skip => exact (ih skip).cons b
    | zero =>
      rw [eraseFrom]
      split
      next => exact (ih _).cons b
      next => exact (ih 0).cons_cons b

/-- Bytes that stand in no marker. -/
def isPlain (b : UInt8) : Bool := markers.all fun marker => !marker.contains b

@[simp] theorem strip_nil : strip [] = [] := rfl

theorem strip_append (left : Bytes) (b : UInt8) (right : Bytes) (plain : isPlain b = true) :
    strip (left ++ b :: right) = strip left ++ b :: strip right := by
  have outside : ∀ marker ∈ markers, marker ≠ [] ∧ b ∉ marker := by
    intro marker member
    refine ⟨?_,by simpa using List.all_eq_true.mp plain marker member⟩
    revert marker
    decide
  unfold strip
  generalize markers = list at outside
  induction list generalizing left right with
  | nil => rfl
  | cons marker list ih =>
    obtain ⟨⟨some,absent⟩,rest⟩ := List.forall_mem_cons.mp outside
    simp only [List.foldl_cons]
    rw [erase,eraseFrom_append marker some b absent right 0 left (Nat.zero_le _)]
    exact ih _ _ rest

theorem strip_plain (left right : Bytes) (plain : ∀ b ∈ left, isPlain b = true) :
    strip (left ++ right) = left ++ strip right := by
  induction left with
  | nil => rfl
  | cons b left ih =>
    obtain ⟨first,rest⟩ := List.forall_mem_cons.mp plain
    have split := strip_append [] b (left ++ right) first
    rw [List.nil_append,strip_nil,List.nil_append] at split
    rw [List.cons_append,split,ih rest,List.cons_append]

theorem foldl_erase_sublist (list : List Bytes) (text : Bytes) :
    (list.foldl (fun left marker => erase marker left) text).Sublist text := by
  induction list generalizing text with
  | nil => exact List.Sublist.refl text
  | cons marker list ih => exact (ih _).trans (eraseFrom_sublist marker 0 text)

theorem strip_sublist (text : Bytes) : (strip text).Sublist text := foldl_erase_sublist markers text

end Erase

/-- A text before its ends are trimmed. -/
def squeeze (text : Bytes) : Bytes := strip (spell (collapse (glyphs text)))

theorem clean_eq (text : Bytes) : clean text = trim (squeeze text) := rfl

private theorem spell_collapse_space (text : Bytes) :
    ∃ front, spell (collapse (glyphs (text ++ [Ascii.space]))) = front ++ [Ascii.space] := by
  obtain ⟨front,ends⟩ := collapse_concat_blank (glyphs text) (Glyph.ascii Ascii.space) (by decide)
  refine ⟨spell front,?_⟩
  have read : glyphs (text ++ [Ascii.space]) = glyphs text ++ [Glyph.ascii Ascii.space] :=
    glyphs_append_ascii text _ [] (by decide)
  rw [read,ends,spell_append]
  rfl

/-- A space before something that is not blank divides a text. -/
theorem squeeze_append_space (left right : Bytes) (solid : ∀ g ∈ (glyphs right).head?, g.isBlank = false) :
    squeeze (left ++ Ascii.space :: right) = squeeze (left ++ [Ascii.space]) ++ squeeze right := by
  have read : glyphs (left ++ Ascii.space :: right) = glyphs (left ++ [Ascii.space]) ++ glyphs right := by
    rw [glyphs_append_ascii left _ right (by decide),glyphs_append_ascii left _ [] (by decide)]
    simp
  have collapsed : collapse (glyphs (left ++ [Ascii.space]) ++ glyphs right) =
      collapse (glyphs (left ++ [Ascii.space])) ++ collapse (glyphs right) := by
    cases row : glyphs right with
    | nil => simp [collapse]
    | cons g row => exact collapse_append _ g _ (solid g (by simp [row]))
  obtain ⟨front,ends⟩ := spell_collapse_space left
  have plain : isPlain Ascii.space = true := by decide
  have both := strip_append front _ (spell (collapse (glyphs right))) plain
  have one := strip_append front _ [] plain
  rw [squeeze,squeeze,squeeze,read,collapsed,spell_append,ends,List.append_assoc,List.singleton_append,both,one]
  simp

theorem squeeze_solid (left right : Bytes) (solid : ∀ g ∈ glyphs left, g.isBlank = false)
    (plain : ∀ b ∈ left, isPlain b = true) (apart : glyphs (left ++ right) = glyphs left ++ glyphs right) :
    squeeze (left ++ right) = left ++ squeeze right := by
  rw [squeeze,apart,collapse_solid _ _ solid,spell_append,spell_glyphs,strip_plain _ _ plain]
  rfl

theorem newline_not_mem_squeeze (text : Bytes) : Ascii.newline ∉ squeeze text := by
  intro member
  obtain ⟨g,among,inside⟩ := List.mem_flatMap.mp ((strip_sublist _).subset member)
  rcases mem_collapse _ g among with rfl | ⟨read,solid⟩
  · revert inside
    decide
  · rw [glyph_of_byte text g read _ inside (by decide)] at solid
    revert solid
    decide

end SqlTidy
