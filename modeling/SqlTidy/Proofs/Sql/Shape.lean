import SqlTidy.Proofs.Sql.Quoting
import SqlTidy.Proofs.Sql.Validity
import SqlTidy.Proofs.Text.Runs

/-! The shape of a sanitized statement. Cleaning puts a statement on one line, without
semicolons and without white space at its ends. No later step undoes this: cutting leaves a
start of the statement that does not end in white space, and quoting changes backticks alone. -/
namespace SqlTidy

/-- A statement on one line without a semicolon, and with white space at neither end. -/
structure Shaped (sql : Bytes) : Prop where
  line : Ascii.newline ∉ sql
  single : Ascii.semicolon ∉ sql
  begins : ∀ c, isBlank c = true → ¬String.utf8EncodeChar c <+: sql
  ends : ∀ c, isBlank c = true → ¬String.utf8EncodeChar c <:+ sql

/-- All white space of a statement is spaces. -/
def SpacesOnly (sql : Bytes) : Prop := ∀ c, isBlank c = true → String.utf8EncodeChar c <:+: sql → c = ' '

section Clean

variable (text : Bytes)

theorem shaped_clean : Shaped (clean text) where
  line member := newline_not_mem_squeeze text ((within_squeeze_of_clean text _ List.infix_rfl).subset member)
  single := semicolon_not_mem_clean text
  begins := by
    rw [not_prefix_iff,clean_eq,glyphs_trim]
    exact trimmed_begins Glyph.isBlank _
  ends := by
    rw [not_suffix_iff,clean_eq,glyphs_trim]
    exact trimmed_ends Glyph.isBlank _

theorem spacesOnly_clean (valid : isUtf8 text = true) : SpacesOnly (clean text) := by
  refine (infix_only_iff isBlank _ ' ').mpr fun g member blank => ?_
  rcases mem_collapse _ g ((clean_sublist text valid).subset member) with same | ⟨_,solid⟩
  · exact same
  · exact absurd (blank.symm.trans solid) (by decide)

end Clean

section Steps

variable {sql : Bytes}

theorem Shaped.removeLimit (shaped : Shaped sql) : Shaped (removeLimit sql) where
  line member := shaped.line ((removeLimit_isPrefix sql).subset member)
  single member := shaped.single ((removeLimit_isPrefix sql).subset member)
  begins c blank start := shaped.begins c blank (start.trans (removeLimit_isPrefix sql))
  ends := by
    rw [not_suffix_iff,glyphs_removeLimit]
    exact Limit.cut_ends _ ((not_suffix_iff isBlank sql).mp shaped.ends)

theorem SpacesOnly.removeLimit (spaces : SpacesOnly sql) : SpacesOnly (removeLimit sql) :=
  fun c blank inside => spaces c blank (inside.trans (removeLimit_isPrefix sql).isInfix)

theorem mem_addQuotes (b : UInt8) (member : b ∈ addQuotes sql) : b = Ascii.quote ∨ b ∈ sql ∧ b ≠ Ascii.backtick := by
  obtain ⟨c,inside,same⟩ := List.mem_map.mp member
  split at same
  next => exact .inl same.symm
  next other => exact .inr ⟨same ▸ inside,by simpa [← same] using other⟩

theorem Shaped.addQuotes (shaped : Shaped sql) : Shaped (addQuotes sql) where
  line member := shaped.line ((mem_addQuotes _ member).resolve_left (by decide)).1
  single member := shaped.single ((mem_addQuotes _ member).resolve_left (by decide)).1
  begins := by
    rw [not_prefix_iff,glyphs_addQuotes,List.head?_map]
    intro g first
    obtain ⟨h,head,rfl⟩ := Option.map_eq_some_iff.mp first
    exact h.isBlank_quoted.trans ((not_prefix_iff isBlank sql).mp shaped.begins h head)
  ends := by
    rw [not_suffix_iff,glyphs_addQuotes,List.getLast?_map]
    intro g last
    obtain ⟨h,tail,rfl⟩ := Option.map_eq_some_iff.mp last
    exact h.isBlank_quoted.trans ((not_suffix_iff isBlank sql).mp shaped.ends h tail)

theorem SpacesOnly.addQuotes (spaces : SpacesOnly sql) : SpacesOnly (addQuotes sql) := by
  refine (infix_only_iff isBlank _ ' ').mpr fun g member blank => ?_
  rw [glyphs_addQuotes] at member
  obtain ⟨h,inside,rfl⟩ := List.mem_map.mp member
  have same := (infix_only_iff isBlank sql ' ').mp spaces h inside (h.isBlank_quoted.symm.trans blank)
  rw [same]
  decide

end Steps

/-- Every sanitized statement stands on one line, has no semicolon and no white space at its
ends, and no backtick once identifiers are quoted. If it was made of a valid text, all its
white space is spaces. -/
theorem sanitize_shapes (options : Options) (text : Bytes) :
    Shaped (sanitize options text).sql ∧
    (options.addQuotes = true → Ascii.backtick ∉ (sanitize options text).sql) ∧
    (isUtf8 text = true → SpacesOnly (sanitize options text).sql) := by
  refine ⟨?_,fun quotes member => ?_,fun valid => ?_⟩
  · exact finish_keeps Shaped (fun _ => Shaped.removeLimit) (fun _ => Shaped.addQuotes) options _ (shaped_clean _)
  · have quoted : ∃ sql, (sanitize options text).sql = addQuotes sql := ⟨_,if_pos quotes⟩
    obtain ⟨sql,same⟩ := quoted
    rw [same] at member
    exact ((mem_addQuotes _ member).resolve_left (by decide)).2 rfl
  · exact finish_keeps SpacesOnly (fun _ => SpacesOnly.removeLimit) (fun _ => SpacesOnly.addQuotes) options _
      (spacesOnly_clean _ (isUtf8_block options text valid))

/-- A fenced block with a no-break space, a clause behind a semicolon, and backticks. -/
theorem sanitize_shapes_block :
    let text := utf8 "```sql\nSELECT\u00a0`a`;\n  LIMIT 5 ; \n```\n"
    let options : Options := ⟨true,true,true⟩
    isUtf8 text = true ∧ options.addQuotes = true ∧ sanitize options text = ⟨utf8 "SELECT \"a\"",true⟩ ∧
      SpacesOnly (sanitize options text).sql ∧ Ascii.backtick ∉ (sanitize options text).sql := by
  intro text options
  have valid : isUtf8 text = true := by decide +kernel
  obtain ⟨_,quoted,spaces⟩ := sanitize_shapes options text
  exact ⟨valid,rfl,by decide +kernel,spaces valid,quoted rfl⟩

end SqlTidy
