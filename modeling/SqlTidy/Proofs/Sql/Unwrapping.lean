import SqlTidy.Proofs.Markdown.Written
import SqlTidy.Proofs.Sql.Extraction
import SqlTidy.Proofs.Sql.Words

/-! Two ways out of a fence. A statement in a fence tagged `sql` can be taken out of it as a
block of the document, or the fence can be removed as a pair of markers around the words of
the statement. The block is the statement without the white space at its ends, which
cleaning does not see, so that both ways lead to the same. -/
namespace SqlTidy
open Ascii Markdown

theorem rowWords_trimRow (row : List Glyph) : rowWords (trimRow row) = rowWords row := by
  have front := List.takeWhile_append_dropWhile (p := Glyph.isBlank) (l := row)
  have back := List.rdropWhile_append_rtakeWhile (p := Glyph.isBlank) (l := row.dropWhile Glyph.isBlank)
  calc rowWords (trimRow row)
      = rowWords (trimRow row ++ (row.dropWhile Glyph.isBlank).rtakeWhile Glyph.isBlank) :=
        (rowWords_append_blanks _ _ fun _ member => List.mem_rtakeWhile_imp member).symm
    _ = rowWords (row.dropWhile Glyph.isBlank) := congrArg rowWords back
    _ = rowWords (row.takeWhile Glyph.isBlank ++ row.dropWhile Glyph.isBlank) :=
        (rowWords_blanks _ _ fun _ member => List.mem_takeWhile_imp member).symm
    _ = rowWords row := congrArg rowWords front

theorem clean_trim (text : Bytes) : clean (trim text) = clean text := by
  have same : words (trim text) = words text := by rw [words,glyphs_trim,rowWords_trimRow,words]
  rw [clean_eq_words,same,← clean_eq_words]

theorem trim_append_newline (text : Bytes) : trim (text ++ [newline]) = trim text := by
  have white : ∀ g ∈ [Glyph.ascii newline], g.isBlank = true := by
    intro g member
    rw [List.mem_singleton.mp member]
    decide
  have cut := trimRow_blanks [] (glyphs text) _ (by simp) white
  rw [trim,glyphs_append_ascii text newline [] (by decide),glyphs_nil,← List.nil_append (_ ++ _),cut,trim]

/-- A document that begins with a block tagged `sql` gives the code of that block. -/
theorem extract_fenced (block : FencedCode) (tagged : block.fence.language = utf8 "sql")
    (absent : carriageReturn ∉ block.text) (rest : Bytes) : extract (block.text ++ rest) = some (trim block.code) := by
  obtain ⟨more,first⟩ := block.fences_text rest absent
  rw [extract_eq,first,choose,chooseFrom,tagged,if_pos (beq_self_eq_true _),Option.map_some]
  exact congrArg some (trim_append_newline block.code)

section Sql

theorem fence_eq : utf8 "```" = List.replicate 3 backtick := by decide +kernel

/-- A statement in a fence tagged `sql`. -/
def sqlBlock (body : Bytes) (plain : ¬utf8 "```" <:+: body) : FencedCode where
  mark := backtick
  kind := .inl rfl
  width := 3
  wide := Nat.le_refl 3
  info := utf8 "sql"
  oneLine := by decide +kernel
  begins := by
    have first : (utf8 "sql").head? = some 0x73 := by decide +kernel
    intro b head
    obtain rfl := Option.some.inj (first.symm.trans head)
    decide
  code := body
  unclosed := fence_eq ▸ plain

variable (body : Bytes)

theorem text_sqlBlock (plain : ¬utf8 "```" <:+: body) :
    (sqlBlock body plain).text = utf8 "```sql\n" ++ body ++ utf8 "\n```\n" := by
  have opens : utf8 "```sql\n" = List.replicate 3 backtick ++ (utf8 "sql" ++ [newline]) := by decide +kernel
  have closes : utf8 "\n```\n" = newline :: (List.replicate 3 backtick ++ [newline]) := by decide +kernel
  rw [opens,closes]
  simp [FencedCode.text,FencedCode.marker,sqlBlock]

theorem extract_sql (plain : ¬utf8 "```" <:+: body) (absent : carriageReturn ∉ body) (rest : Bytes) :
    extract (utf8 "```sql\n" ++ body ++ utf8 "\n```\n" ++ rest) = some (trim body) := by
  rw [← text_sqlBlock body plain]
  apply extract_fenced (sqlBlock body plain)
  · change lower (firstWord (unescape (utf8 "sql"))) = utf8 "sql"
    decide +kernel
  · have opens : carriageReturn ∉ utf8 "```sql\n" := by decide +kernel
    have closes : carriageReturn ∉ utf8 "\n```\n" := by decide +kernel
    rw [text_sqlBlock]
    simp [opens,absent,closes]

/-- The fence is a pair of markers, and they need not be told from what they enclose. -/
theorem clean_sql : clean (utf8 "```sql\n" ++ body ++ utf8 "\n```\n") = clean body := by
  have white : isBlank '\n' = true := by decide
  let nothing : Run isBlank := ⟨[],by simp⟩
  have wrapped := clean_wrapped nothing (.single '\n' white) (.single '\n' white) (.single '\n' white)
    (utf8 "```sql") (utf8 "```") (by decide) (by decide) (by simp [Run.single]) (by simp [Run.single]) body
  have opens : utf8 "```sql\n" = utf8 "```sql" ++ String.utf8EncodeChar '\n' := by decide +kernel
  have closes : utf8 "\n```\n" = String.utf8EncodeChar '\n' ++ utf8 "```" ++ String.utf8EncodeChar '\n' := by
    decide +kernel
  rw [show nothing.text = [] from rfl,List.nil_append] at wrapped
  rw [opens,closes]
  simpa only [Run.text_single,List.append_assoc] using wrapped

end Sql

/-- A statement in a fence tagged `sql` at the start of a document is found without the white
space at its ends, whatever it looks like and whatever follows. If nothing follows, then the
result is the same whether the block is asked for or not, and it is that of the bare statement. -/
theorem unwrapping_agrees (body : Bytes) (plain : ¬utf8 "```" <:+: body) (absent : carriageReturn ∉ body) :
    let wrapped := utf8 "```sql\n" ++ body ++ utf8 "\n```\n"
    (∀ rest, extract (wrapped ++ rest) = some (trim body)) ∧
      ∀ options : Options,
        let bare := sanitize { options with extract := false } body
        sanitize { options with extract := true } wrapped = ⟨bare.sql,true⟩ ∧
          sanitize { options with extract := false } wrapped = ⟨bare.sql,false⟩ := by
  intro wrapped
  have found := extract_sql body plain absent
  refine ⟨found,fun options => ?_⟩
  have whole : extract wrapped = some (trim body) := by
    have alone := found []
    rw [List.append_nil] at alone
    exact alone
  have unmarked : clean wrapped = clean body := clean_sql body
  constructor
  · simp [sanitize,Options.block?,Options.finish,whole,clean_trim]
  · simp [sanitize,Options.block?,Options.finish,unmarked]

/-- A body that looks like a heading, a list with a fence of tildes, HTML and indented code. -/
theorem unwrapping_agrees_strange :
    let body := utf8 "\n# a\n\n- ~~~\n<div>\n\n    SELECT ``1`` ;\n"
    let wrapped := utf8 "```sql\n" ++ body ++ utf8 "\n```\n"
    (¬utf8 "```" <:+: body ∧ carriageReturn ∉ body) ∧
      extract (wrapped ++ utf8 "```sql\nb\n```\n") = some (utf8 "# a\n\n- ~~~\n<div>\n\n    SELECT ``1`` ;") ∧
      sanitize { extract := true, addQuotes := true } wrapped = ⟨utf8 "# a - ~~~ <div> SELECT \"\"1\"\"",true⟩ := by
  intro body wrapped
  have plain : ¬utf8 "```" <:+: body := by
    rw [← has_iff]
    decide +kernel
  have absent : carriageReturn ∉ body := by decide +kernel
  obtain ⟨found,same⟩ := unwrapping_agrees body plain absent
  refine ⟨⟨plain,absent⟩,(found _).trans ?_,((same { addQuotes := true }).1).trans ?_⟩
  · decide +kernel
  · decide +kernel

end SqlTidy
