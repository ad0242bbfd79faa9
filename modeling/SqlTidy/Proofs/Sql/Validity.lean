import SqlTidy.Proofs.Sql.Clause
import SqlTidy.Proofs.Sql.Extraction
import SqlTidy.Proofs.Sql.Losses
import SqlTidy.Sql.Sanitize

/-! The transforms keep a text valid: each leaves out code points or ASCII bytes, or writes
ASCII bytes for what it leaves out. -/
namespace SqlTidy
open Utf8

theorem isUtf8_trim (text : Bytes) (valid : isUtf8 text = true) : isUtf8 (trim text) = true :=
  isUtf8_spell_of_subset text valid _ (trimRow_thinned (fun _ => true) (fun _ _ => rfl) _).sublist.subset

theorem isUtf8_clean (text : Bytes) (valid : isUtf8 text = true) : isUtf8 (clean text) = true := by
  refine isUtf8_of_subset _ _ (isUtf8_spell_collapse text valid) ?_
  rw [glyphs_spell_collapse text valid]
  exact (clean_sublist text valid).subset

theorem isUtf8_removeLimit (sql : Bytes) (valid : isUtf8 sql = true) : isUtf8 (removeLimit sql) = true :=
  isUtf8_spell_of_subset sql valid _ (Limit.cut_isPrefix _).subset

theorem addQuotes_edit (sql : Bytes) : AsciiEdit sql (addQuotes sql) := by
  induction sql with
  | nil => exact .nil
  | cons b sql ih =>
    simp only [addQuotes,List.map_cons]
    split
    next mark => exact .change b Ascii.quote (beq_iff_eq.mp mark ▸ by decide) (by decide) ih
    next => exact .keep b ih

theorem isUtf8_addQuotes (sql : Bytes) (valid : isUtf8 sql = true) : isUtf8 (addQuotes sql) = true :=
  (addQuotes_edit sql).valid _ _ valid

theorem isUtf8_extract (text block : Bytes) (valid : isUtf8 text = true) (found : extract text = some block) :
    isUtf8 block = true := by
  rw [extract_eq] at found
  obtain ⟨fence,chosen,rfl⟩ := Option.map_eq_some_iff.mp found
  rw [choose_eq] at chosen
  refine isUtf8_trim _ (Markdown.fences_valid text valid fence ?_)
  rcases Option.or_eq_some_iff.mp chosen with tagged | ⟨_,bare⟩
  · exact List.mem_of_find?_eq_some tagged
  · exact List.mem_of_find?_eq_some bare

theorem isUtf8_block (options : Options) (text : Bytes) (valid : isUtf8 text = true) :
    isUtf8 ((options.block? text).getD text) = true := by
  cases found : options.block? text with
  | none => exact valid
  | some block =>
    simp only [Options.block?] at found
    split at found
    next => exact isUtf8_extract text block valid found
    next => simp at found

/-- What cutting and quoting keep is kept by all that follows cleaning. -/
theorem finish_keeps (keeps : Bytes → Prop) (cut : ∀ sql, keeps sql → keeps (removeLimit sql))
    (quote : ∀ sql, keeps sql → keeps (addQuotes sql)) (options : Options) (sql : Bytes) (holds : keeps sql) :
    keeps (options.finish sql) := by
  have limited : keeps (if options.removeLimit then removeLimit sql else sql) := by
    split
    next => exact cut sql holds
    next => exact holds
  simp only [Options.finish]
  split
  next => exact quote _ limited
  next => exact limited

/-- What is made of a valid text is valid, with any options. -/
theorem isUtf8_sanitize (options : Options) (text : Bytes) (valid : isUtf8 text = true) :
    isUtf8 (sanitize options text).sql = true :=
  finish_keeps (isUtf8 · = true) isUtf8_removeLimit isUtf8_addQuotes options _
    (isUtf8_clean _ (isUtf8_block options text valid))

end SqlTidy
