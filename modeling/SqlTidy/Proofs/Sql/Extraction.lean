import SqlTidy.Proofs.Markdown.Unfenced
import SqlTidy.Sql.Extract

/-! Taking the SQL block out of a Markdown text. One walk over the fences finds what two
searches find: the first tagged `sql`, else the first without a tag. A text that is not parsed
because it holds no fence mark has no fences, so that parsing it would give the same. -/
namespace SqlTidy
open Markdown

theorem chooseFrom_eq (kept : Option Fence) (fences : List Fence) :
    chooseFrom kept fences = (fences.find? fun fence => fence.language == utf8 "sql").or
      (kept.or (fences.find? fun fence => fence.language == [])) := by
  induction fences generalizing kept with
  | nil => simp [chooseFrom]
  | cons fence rest ih =>
    simp only [chooseFrom,List.find?_cons]
    split
    next tagged => simp [tagged]
    next other =>
      have apart : (fence.language == utf8 "sql") = false := Bool.eq_false_iff.mpr other
      split
      next bare => rw [ih,apart,bare,Option.or_assoc,Option.some_or]
      next named => rw [ih,apart,Bool.eq_false_iff.mpr named]

theorem choose_eq (fences : List Fence) : choose fences =
    (fences.find? fun fence => fence.language == utf8 "sql").or (fences.find? fun fence => fence.language == []) :=
  chooseFrom_eq none fences

/-! A fence without a tag is one with a blank info string. -/

theorem glyphs_firstWord (text : Bytes) :
    glyphs (firstWord text) = ((glyphs text).dropWhile Glyph.isBlank).takeWhile fun g => !g.isBlank := by
  refine glyphs_spell_piece ((glyphs text).takeWhile Glyph.isBlank) _
    (((glyphs text).dropWhile Glyph.isBlank).dropWhile fun g => !g.isBlank) text ?_
  rw [List.append_assoc,List.takeWhile_append_dropWhile,List.takeWhile_append_dropWhile]

theorem firstWord_eq_nil (text : Bytes) : glyphs (firstWord text) = [] ↔ ∀ g ∈ glyphs text, g.isBlank = true := by
  rw [glyphs_firstWord,← List.dropWhile_eq_nil_iff]
  have solid := List.head?_dropWhile_not Glyph.isBlank (glyphs text)
  cases begins : (glyphs text).dropWhile Glyph.isBlank with
  | nil => simp
  | cons g rest =>
    simp only [begins,List.head?_cons] at solid
    simp [solid]

theorem lower_eq_nil (text : Bytes) : lower text = [] ↔ glyphs text = [] := by
  rw [lower,List.flatMap_eq_nil_iff,List.eq_nil_iff_forall_not_mem]
  exact forall₂_congr fun _ _ => iff_false_intro String.utf8EncodeChar_ne_nil

theorem language_isEmpty (fence : Fence) : (fence.language == []) = (glyphs fence.info).all Glyph.isBlank := by
  rw [Bool.eq_iff_iff,beq_iff_eq,List.all_eq_true,Fence.language,lower_eq_nil,firstWord_eq_nil]

/-! Texts that are not parsed. -/

theorem unfenced_of_mayHoldFence (text : Bytes) (without : mayHoldFence text = false) : Unfenced text := by
  simp only [mayHoldFence,Bool.or_eq_false_iff] at without
  rintro mark (rfl | rfl) marks
  · exact Bool.false_ne_true (without.1.symm.trans ((has_iff _ _).mpr marks))
  · exact Bool.false_ne_true (without.2.symm.trans ((has_iff _ _).mpr marks))

theorem extract_eq (text : Bytes) : extract text = (choose (fences text)).map fun fence => trim fence.literal := by
  rw [extract]
  split
  next => rfl
  next without =>
    rw [fences_eq_nil text (unfenced_of_mayHoldFence text (Bool.eq_false_iff.mpr without))]
    rfl

/-- The block that is taken from a text is selected among all fences of the document, nested
ones included and in document order: the first whose lower-cased first info word is `sql`,
else the first with a blank info string. -/
theorem extract_selects_block (text : Bytes) : extract text =
    (((fences text).find? fun fence => lower (firstWord fence.info) == utf8 "sql").or
      ((fences text).find? fun fence => (glyphs fence.info).all Glyph.isBlank)).map fun fence => trim fence.literal := by
  simp only [extract_eq,choose_eq,language_isEmpty]
  rfl

-- A tagged block in a list wins over one without a tag in a quote before it.
example : extract (utf8 "> ```\n> a\n> ```\n\n- x\n\n  ~~~ SQL y\n  b\n  ~~~\n") = some (utf8 "b") := by
  decide +kernel

end SqlTidy
