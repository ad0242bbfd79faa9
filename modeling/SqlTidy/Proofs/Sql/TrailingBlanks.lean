import SqlTidy.Proofs.Sql.Grammar

/-! White space behind a LIMIT clause. A clause without a comment stays one, whatever white
space follows. A comment ends at a newline: the clause before it is then no longer the end of
the statement, and only a clause inside the comment can be removed. -/
namespace SqlTidy
open Utf8

namespace Limit

/-- Whether a clause ends without a comment. -/
def isBare (row : List Glyph) : Bool := (afterNumber? row).any fun rest => (afterMark rest).isEmpty

section Blanks

variable (row blanks : List Glyph) (blank : ∀ g ∈ blanks, g.isBlank = true)
include blank

theorem afterMark_append : afterMark (row ++ blanks) =
    if (afterMark row).isEmpty then [] else afterMark row ++ blanks := by
  unfold afterMark
  rw [dropWhile_append_blanks row blanks blank]
  cases row.dropWhile Glyph.isBlank with
  | nil => rfl
  | cons g row =>
    have mark : dropSemicolon (g :: row ++ blanks) = dropSemicolon (g :: row) ++ blanks := by
      simp only [List.cons_append,dropSemicolon]
      split <;> rfl
    rw [List.isEmpty_cons,if_neg (by decide),mark,dropWhile_append_blanks _ blanks blank]

theorem isComment_append (some : row ≠ []) : isComment (row ++ blanks) = (isComment row && isLine blanks) := by
  have dash (g : Glyph) (member : g ∈ blanks) : g.is (· == '-') = false :=
    g.is_disjoint (disjoint_symm fun c same => by rw [beq_iff_eq.mp same]; decide) (blank g member)
  rcases row with _ | ⟨a,_ | ⟨b,row⟩⟩
  · exact absurd rfl some
  · cases blanks with
    | nil => rfl
    | cons g blanks => simp [isComment,dash g List.mem_cons_self]
  · simp [isComment,isLine,Bool.and_assoc]

theorem afterNumber?_append : afterNumber? (row ++ blanks) = (afterNumber? row).map (· ++ blanks) := by
  cases blanks with
  | nil => simp
  | cons g blanks =>
    have white := blank g List.mem_cons_self
    have letter (upper : Char) (high : isBlank upper = false) (low : isBlank upper.toLower = false) :
        isLetter upper g = false := g.is_disjoint (disjoint_symm (letter_outside upper isBlank high low)) white
    have digit : g.isDecimal = false := g.is_disjoint (disjoint_symm decimal_not_blank) white
    unfold afterNumber?
    rw [dropWhile_append_blanks row _ blank]
    cases row.dropWhile Glyph.isBlank with
    | nil => rfl
    | cons first row =>
      rw [List.isEmpty_cons,if_neg (by decide),afterKeyword?_append _ g blanks (by simp)
        (letter 'I' (by decide) (by decide)) (letter 'M' (by decide) (by decide)) (letter 'T' (by decide) (by decide))]
      cases afterKeyword? (first :: row) with
      | none => rfl
      | some rest =>
        simp only [Option.map_some,Option.bind_some]
        cases rest with
        | nil => simp [afterRun?,white,List.dropWhile_eq_nil_iff.mpr (List.forall_mem_cons.mp blank).2]
        | cons next rest =>
          simp only [List.cons_append,afterRun?]
          split
          next =>
            simp only [Option.bind_some,dropWhile_append_blanks rest _ blank]
            cases rest.dropWhile Glyph.isBlank with
            | nil => rfl
            | cons digits rest => exact afterRun?_append _ (digits :: rest) g blanks digit
          next => rfl

/-- White space behind a row leaves it a clause, except for a newline behind a comment. -/
theorem isClause_append : isClause (row ++ blanks) = (isClause row && (isBare row || isLine blanks)) := by
  rw [isClause_eq,isClause_eq,isBare,afterNumber?_append row blanks blank]
  cases afterNumber? row with
  | none => rfl
  | some rest =>
    simp only [Option.map_some,Option.any_some,afterMark_append rest blanks blank]
    cases afterMark rest with
    | nil => rfl
    | cons g comment =>
      rw [List.isEmpty_cons,if_neg (by decide),isComment_append (g :: comment) blanks blank (by simp),Bool.false_or]

end Blanks

section Letters

theorem suffix_append_cases (piece left right : List Glyph) (suffix : piece <:+ left ++ right) :
    piece <:+ right ∨ ∃ front, front <:+ left ∧ piece = front ++ right := by
  obtain ⟨before,whole⟩ := suffix
  rcases List.append_eq_append_iff.mp whole with ⟨front,rfl,rfl⟩ | ⟨between,rfl,rfl⟩
  · exact .inr ⟨front,List.suffix_append _ _,rfl⟩
  · exact .inl (List.suffix_append _ _)

theorem afterKeyword?_other (g : Glyph) (row : List Glyph) (other : isLetter 'L' g = false) :
    afterKeyword? (g :: row) = none := by
  rcases row with _ | ⟨i,_ | ⟨m,_ | ⟨j,_ | ⟨t,row⟩⟩⟩⟩ <;> simp [afterKeyword?,other]

/-- No clause begins where there is no L. -/
theorem isClause_other (piece rest : List Glyph) (begun : ∃ g ∈ piece, g.isBlank = false)
    (other : ∀ g ∈ piece, isLetter 'L' g = false) : isClause (piece ++ rest) = false := by
  obtain ⟨g,member,solid⟩ := begun
  obtain ⟨first,more,split⟩ : ∃ first more, piece.dropWhile Glyph.isBlank = first :: more := by
    refine List.exists_cons_of_ne_nil fun none => ?_
    have blank := List.dropWhile_eq_nil_iff.mp none g member
    simp [solid] at blank
  have among : first ∈ piece := (List.dropWhile_suffix _).subset (split ▸ List.mem_cons_self)
  rw [isClause_eq,afterNumber?,List.dropWhile_append,split,List.isEmpty_cons,if_neg (by decide),List.cons_append,
    afterKeyword?_other first _ (other first among)]
  rfl

variable (front lead : List Glyph) (l : Glyph) (middle line blanks : List Glyph) (dash : Glyph)

/-- Where a newline ends the comment of a clause, all is kept up to the text of the comment. -/
theorem cut_commented (leads : ∀ g ∈ lead, g.isBlank = true) (solid : dash.isBlank = false)
    (other : ∀ g ∈ middle ++ [dash], isLetter 'L' g = false)
    (none : ∀ piece, piece <:+ front → isClause (piece ++ (lead ++ l :: (middle ++ [dash])) ++ (line ++ blanks)) = false) :
    cut (front ++ (lead ++ l :: (middle ++ [dash])) ++ (line ++ blanks)) =
      front ++ (lead ++ l :: (middle ++ [dash])) ++ cut (line ++ blanks) := by
  refine cut_append _ _ fun piece some suffix => ?_
  have whole := none [] List.nil_suffix
  rw [List.nil_append,List.append_assoc,isClause_blanks _ _ leads] at whole
  rcases suffix_append_cases piece _ _ suffix with inside | ⟨before,early,rfl⟩
  · rcases suffix_append_cases piece _ _ inside with word | ⟨before,early,rfl⟩
    · rcases List.suffix_cons_iff.mp word with rfl | later
      · exact whole
      · -- Behind the first letter there is no other L, and a dash at the end.
        refine isClause_other piece _ ?_ fun g member => other g (later.subset member)
        obtain ⟨before,rfl,_⟩ := (List.suffix_concat_iff.mp later).resolve_left some
        exact ⟨dash,by simp,solid⟩
    · rw [List.append_assoc,isClause_blanks _ _ fun g member => leads g (early.subset member)]
      exact whole
  · exact none before early

end Letters

end Limit

theorem Run.isLine_row {test : Char → Bool} (run : Run test) : Limit.isLine run.row = true ↔ '\n' ∉ run.chars := by
  simp only [Limit.isLine,Run.row,List.all_map,List.all_eq_true,Function.comp_apply,Bool.not_eq_true',Glyph.ofChar,
    Glyph.is,Option.any_some,beq_eq_false_iff_ne]
  exact ⟨fun other member => other _ member rfl,fun absent c member same => absent (same ▸ member)⟩

namespace Clause

variable (clause : Clause)

theorem isBare_text : Limit.isBare (glyphs clause.text) = true ↔ clause.comment = none := by
  rw [Limit.isBare,clause.afterNumber?_text,Option.any_some,clause.afterMark_closing _ clause.remark_begins,glyphs_remark]
  cases clause.comment <;> simp

theorem glyphs_body_dashes (line : Bytes) :
    glyphs (clause.body ++ utf8 "--" ++ line) = glyphs (clause.body ++ utf8 "--") ++ glyphs line := by
  have small : ∀ b ∈ utf8 "--", b < 0x80 := by decide +kernel
  rw [List.append_assoc,glyphs_body_append,glyphs_body_append,glyphs_ascii_append _ _ small,glyphs_of_ascii _ small]
  simp only [List.append_assoc]

/-- Up to the text of its comment a clause has one L, and a dash at the end. -/
theorem body_dashes_row : ∃ l middle, glyphs (clause.body ++ utf8 "--") =
      clause.lead.row ++ l :: (middle ++ [Glyph.ascii Ascii.dash]) ∧
    ∀ g ∈ middle ++ [Glyph.ascii Ascii.dash], Limit.isLetter 'L' g = false := by
  obtain ⟨l,i,m,j,t,word,hl,hi,hm,hj,ht⟩ := Limit.afterKeyword?_split _ _ clause.word_row.2
  have letters : ∀ g ∈ [i,m,j,t], Limit.isLetter 'L' g = false := by
    have other (upper : Char) (high : (upper == 'L' || upper == 'L'.toLower) = false)
        (low : (upper.toLower == 'L' || upper.toLower == 'L'.toLower) = false) (g : Glyph)
        (letter : Limit.isLetter upper g = true) : Limit.isLetter 'L' g = false :=
      g.is_disjoint (Limit.letter_outside upper _ high low) letter
    simp only [List.forall_mem_cons]
    exact ⟨other 'I' (by decide) (by decide) i hi,other 'M' (by decide) (by decide) m hm,
      other 'I' (by decide) (by decide) j hj,other 'T' (by decide) (by decide) t ht,by simp⟩
  have blank (run : Run isBlank) (g : Glyph) (member : g ∈ run.row) : Limit.isLetter 'L' g = false :=
    g.is_disjoint (disjoint_symm (Limit.letter_outside 'L' isBlank (by decide) (by decide))) (run.is_of_mem_row g member)
  have digit (g : Glyph) (member : g ∈ clause.count.row) : Limit.isLetter 'L' g = false :=
    g.is_disjoint (disjoint_symm (Limit.letter_outside 'L' isDecimal (by decide) (by decide)))
      (clause.count.is_of_mem_row g member)
  have marked : ∀ g ∈ clause.mark.map Glyph.ascii, Limit.isLetter 'L' g = false := by
    rcases clause.mark_cases with none | one
    · simp [none]
    · simp only [one,List.map_singleton,List.forall_mem_singleton]
      decide
  refine ⟨l,[i,m,j,t] ++ (clause.gap.row ++ (clause.count.row ++ (clause.closing ++ [Glyph.ascii Ascii.dash]))),?_,?_⟩
  · rw [glyphs_body_append,word]
    have dashes : glyphs (utf8 "--") = [Glyph.ascii Ascii.dash,Glyph.ascii Ascii.dash] := by decide
    simp [dashes]
  · have dash : ∀ g ∈ [Glyph.ascii Ascii.dash], Limit.isLetter 'L' g = false := by
      simp only [List.forall_mem_singleton]
      decide
    simp only [closing,List.forall_mem_append]
    exact ⟨⟨letters,blank clause.gap,digit,⟨blank clause.before,marked,blank clause.after⟩,dash⟩,dash⟩

end Clause

theorem Limit.cut_clause (row : List Glyph) (clause : isClause row = true) : cut row = [] := by
  cases row with
  | nil => rfl
  | cons g row => rw [cut,if_pos clause]

namespace Removed

variable {sql : Bytes} {clause : Clause} (removed : Removed sql clause) (blanks : Run isBlank)
include removed

theorem glyphs_append_blanks :
    glyphs (sql ++ blanks.text) = glyphs (removeLimit sql) ++ (glyphs clause.text ++ blanks.row) := by
  rw [blanks.glyphs_append_text,removed.split,List.append_assoc]

theorem no_longer_blanks (piece : List Glyph) (some : piece ≠ []) (suffix : piece <:+ glyphs (removeLimit sql)) :
    Limit.isClause (piece ++ (glyphs clause.text ++ blanks.row)) = false := by
  rw [← List.append_assoc,Limit.isClause_append _ _ blanks.is_of_mem_row,removed.no_longer piece some suffix,
    Bool.false_and]

theorem append_blanks (harmless : clause.comment = none ∨ '\n' ∉ blanks.chars) :
    removeLimit (sql ++ blanks.text) = removeLimit sql := by
  have still : Limit.isClause (glyphs clause.text ++ blanks.row) = true := by
    rw [Limit.isClause_append _ _ blanks.is_of_mem_row,clause.isClause_text,Bool.true_and,Bool.or_eq_true,
      clause.isBare_text,blanks.isLine_row]
    exact harmless
  rw [removeLimit,removed.glyphs_append_blanks,Limit.cut_append _ _ (removed.no_longer_blanks blanks),
    Limit.cut_clause _ still,List.append_nil,spell_glyphs]

theorem append_newline (line : Bytes) (comment : clause.comment = some line) (newline : '\n' ∈ blanks.chars) :
    removeLimit (sql ++ blanks.text) =
      removeLimit sql ++ clause.body ++ utf8 "--" ++ removeLimit (line ++ blanks.text) := by
  obtain ⟨l,middle,row,other⟩ := clause.body_dashes_row
  have text : glyphs clause.text = glyphs (clause.body ++ utf8 "--") ++ glyphs line := by
    rw [← clause.glyphs_body_dashes,Clause.text,Clause.remark,comment,List.append_assoc]
    rfl
  have broken : Limit.isClause (glyphs clause.text ++ blanks.row) = false := by
    rw [Limit.isClause_append _ _ blanks.is_of_mem_row,clause.isClause_text,Bool.true_and,Bool.or_eq_false_iff,
      ← Bool.not_eq_true,← Bool.not_eq_true,clause.isBare_text,blanks.isLine_row]
    simp [comment,newline]
  have kept := Limit.cut_commented (glyphs (removeLimit sql)) clause.lead.row l middle (glyphs line) blanks.row
    (Glyph.ascii Ascii.dash) clause.lead.is_of_mem_row (by decide) other ?_
  · rw [removeLimit,removed.glyphs_append_blanks,text,row,List.append_assoc,← List.append_assoc,kept,← row,spell_append,
      spell_append,spell_glyphs,spell_glyphs,← blanks.glyphs_append_text]
    simp only [removeLimit,List.append_assoc]
  · intro piece suffix
    rw [List.append_assoc,← List.append_assoc _ _ blanks.row,← row,← text]
    by_cases some : piece = []
    · rw [some,List.nil_append,broken]
    · exact removed.no_longer_blanks blanks piece some suffix

end Removed

/-- White space behind a statement does not keep its clause from being removed, unless the
clause has a comment and a newline is among the white space. Then the statement is kept up to
the text of the comment, and what follows is treated like a statement of its own. -/
theorem removeLimit_append_blanks (sql : Bytes) (blanks : Run isBlank) (changed : removeLimit sql ≠ sql) :
    ∃ clause : Clause, sql = removeLimit sql ++ clause.text ∧
      (removeLimit (sql ++ blanks.text) = removeLimit sql ↔ clause.comment = none ∨ '\n' ∉ blanks.chars) ∧
      ∀ line, clause.comment = some line → '\n' ∈ blanks.chars →
        removeLimit (sql ++ blanks.text) =
          removeLimit sql ++ clause.body ++ utf8 "--" ++ removeLimit (line ++ blanks.text) := by
  obtain ⟨clause,removed⟩ := (removeLimit_cases sql).resolve_left fun kept => changed kept.1
  refine ⟨clause,removed.whole,⟨fun same => ?_,removed.append_blanks blanks⟩,removed.append_newline blanks⟩
  by_contra harmful
  obtain ⟨commented,newline⟩ := not_or.mp harmful
  obtain ⟨line,comment⟩ := Option.ne_none_iff_exists'.mp commented
  have longer := removed.append_newline blanks line comment (not_not.mp newline)
  rw [same] at longer
  have bound := congrArg List.length longer
  have dashes : (utf8 "--").length = 2 := by decide
  simp only [List.length_append] at bound
  omega

theorem removeLimit_append_blanks_newline :
    let sql := utf8 "SELECT * FROM t LIMIT 10 -- top ten"
    let blanks : Run isBlank := Run.single '\n' (by decide)
    removeLimit sql ≠ sql ∧ ∃ clause : Clause, sql = removeLimit sql ++ clause.text ∧
      (removeLimit (sql ++ blanks.text) = removeLimit sql ↔ clause.comment = none ∨ '\n' ∉ blanks.chars) ∧
      ∀ line, clause.comment = some line → '\n' ∈ blanks.chars →
        removeLimit (sql ++ blanks.text) =
          removeLimit sql ++ clause.body ++ utf8 "--" ++ removeLimit (line ++ blanks.text) := by
  intro sql blanks
  have changed : removeLimit sql ≠ sql := by decide +kernel
  exact ⟨changed,removeLimit_append_blanks sql blanks changed⟩

/-- A newline behind its comment keeps a clause from being removed. -/
theorem newline_keeps_commented_clause :
    ¬∀ (sql : Bytes) (blanks : Run isBlank), removeLimit sql ≠ sql →
      removeLimit (sql ++ blanks.text) = removeLimit sql := by
  intro law
  have same := law (utf8 "SELECT * FROM t LIMIT 10 -- top ten") (Run.single '\n' (by decide)) (by decide +kernel)
  revert same
  decide +kernel

end SqlTidy
