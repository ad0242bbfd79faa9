import SqlTidy.Proofs.Sql.Clause
import SqlTidy.Sql.Sanitize

/-! Quotes and LIMIT clauses. A double quote for a backtick changes a glyph that no part of a
clause is read from, so that clauses begin at the same places before and after. Cutting and
quoting may therefore be done in either order. -/
namespace SqlTidy
open Utf8

section Glyphs

theorem addQuotes_append (left right : Bytes) : addQuotes (left ++ right) = addQuotes left ++ addQuotes right :=
  List.map_append

theorem addQuotes_eq_self (sql : Bytes) (absent : Ascii.backtick ∉ sql) : addQuotes sql = sql := by
  have kept : ∀ b ∈ sql, (if b == Ascii.backtick then Ascii.quote else b) = b := by
    intro b member
    have other : b ≠ Ascii.backtick := fun same => absent (same ▸ member)
    simp [other]
  rw [addQuotes,List.map_congr_left kept,List.map_id']

/-- What quoting makes of a glyph. -/
def Glyph.quoted (g : Glyph) : Glyph := if g = Glyph.ascii Ascii.backtick then Glyph.ascii Ascii.quote else g

/-- A backtick is a glyph of its own wherever it stands, so a text is quoted glyph by glyph. -/
theorem glyphs_addQuotes (sql : Bytes) : glyphs (addQuotes sql) = (glyphs sql).map Glyph.quoted := by
  induction size : sql.length using Nat.strongRecOn generalizing sql with
  | ind size ih =>
    subst size
    by_cases member : Ascii.backtick ∈ sql
    · obtain ⟨left,right,rfl⟩ := List.append_of_mem member
      have first := ih left.length (by simp) left rfl
      have last := ih right.length (by simp; omega) right rfl
      have mark : addQuotes (left ++ Ascii.backtick :: right) = addQuotes left ++ Ascii.quote :: addQuotes right :=
        addQuotes_append left (Ascii.backtick :: right)
      rw [mark,glyphs_append_ascii _ _ _ (by decide),glyphs_append_ascii _ _ _ (by decide),first,last,List.map_append,
        List.map_cons]
      rfl
    · have kept : ∀ g ∈ glyphs sql, g.quoted = g := by
        intro g among
        refine if_neg fun same => member ?_
        have inside : Ascii.backtick ∈ spell (glyphs sql) := List.mem_flatMap.mpr ⟨g,among,by simp [same,Glyph.ascii]⟩
        rwa [spell_glyphs] at inside
      rw [addQuotes_eq_self sql member,List.map_congr_left kept,List.map_id']

theorem Glyph.is_quoted (g : Glyph) (test : Char → Bool)
    (alike : (Glyph.ascii Ascii.quote).is test = (Glyph.ascii Ascii.backtick).is test) : g.quoted.is test = g.is test := by
  unfold quoted
  split
  next same => rw [same,alike]
  next => rfl

@[simp] theorem Glyph.isBlank_quoted (g : Glyph) : g.quoted.isBlank = g.isBlank := g.is_quoted _ (by decide)

@[simp] theorem Glyph.isDecimal_quoted (g : Glyph) : g.quoted.isDecimal = g.isDecimal := g.is_quoted _ (by decide)

end Glyphs

namespace Limit

section Clauses

variable (row : List Glyph)

theorem dropWhile_quoted (test : Glyph → Bool) (alike : ∀ g : Glyph, test g.quoted = test g) :
    (row.map Glyph.quoted).dropWhile test = (row.dropWhile test).map Glyph.quoted := by
  rw [List.dropWhile_map]
  exact congrArg (fun test => (row.dropWhile test).map Glyph.quoted) (funext alike)

theorem afterKeyword?_quoted :
    afterKeyword? (row.map Glyph.quoted) = (afterKeyword? row).map (List.map Glyph.quoted) := by
  have letters (g : Glyph) : isLetter 'L' g.quoted = isLetter 'L' g ∧ isLetter 'I' g.quoted = isLetter 'I' g ∧
      isLetter 'M' g.quoted = isLetter 'M' g ∧ isLetter 'T' g.quoted = isLetter 'T' g :=
    ⟨g.is_quoted _ (by decide),g.is_quoted _ (by decide),g.is_quoted _ (by decide),g.is_quoted _ (by decide)⟩
  rcases row with _ | ⟨l,_ | ⟨i,_ | ⟨m,_ | ⟨j,_ | ⟨t,row⟩⟩⟩⟩⟩
  case cons.cons.cons.cons.cons =>
    simp only [List.map_cons,afterKeyword?,letters]
    split <;> rfl
  all_goals rfl

theorem afterRun?_quoted (test : Glyph → Bool) (alike : ∀ g : Glyph, test g.quoted = test g) :
    afterRun? test (row.map Glyph.quoted) = (afterRun? test row).map (List.map Glyph.quoted) := by
  cases row with
  | nil => rfl
  | cons g row =>
    simp only [List.map_cons,afterRun?,alike g,dropWhile_quoted row test alike]
    split <;> rfl

theorem afterNumber?_quoted : afterNumber? (row.map Glyph.quoted) = (afterNumber? row).map (List.map Glyph.quoted) := by
  rw [afterNumber?,dropWhile_quoted row _ Glyph.isBlank_quoted,afterKeyword?_quoted,afterNumber?]
  cases afterKeyword? (row.dropWhile Glyph.isBlank) with
  | none => rfl
  | some rest =>
    simp only [Option.map_some,Option.bind_some,afterRun?_quoted rest _ Glyph.isBlank_quoted]
    cases afterRun? Glyph.isBlank rest with
    | none => rfl
    | some rest => exact afterRun?_quoted rest _ Glyph.isDecimal_quoted

theorem dropSemicolon_quoted : dropSemicolon (row.map Glyph.quoted) = (dropSemicolon row).map Glyph.quoted := by
  cases row with
  | nil => rfl
  | cons g row =>
    simp only [List.map_cons,dropSemicolon,g.is_quoted (· == ';') (by decide)]
    split <;> rfl

theorem afterMark_quoted : afterMark (row.map Glyph.quoted) = (afterMark row).map Glyph.quoted := by
  rw [afterMark,dropWhile_quoted row _ Glyph.isBlank_quoted,dropSemicolon_quoted,
    dropWhile_quoted _ _ Glyph.isBlank_quoted,afterMark]

theorem isComment_quoted : isComment (row.map Glyph.quoted) = isComment row := by
  have dash (g : Glyph) : g.quoted.is (· == '-') = g.is (· == '-') := g.is_quoted _ (by decide)
  have line : (fun g : Glyph => !g.is (· == '\n')) ∘ Glyph.quoted = fun g => !g.is (· == '\n') :=
    funext fun g => congrArg (!·) (g.is_quoted _ (by decide))
  rcases row with _ | ⟨a,_ | ⟨b,row⟩⟩
  · rfl
  · rfl
  · simp only [List.map_cons,isComment,dash,List.all_map,line]

theorem isClause_quoted : isClause (row.map Glyph.quoted) = isClause row := by
  rw [isClause_eq,isClause_eq,afterNumber?_quoted]
  cases afterNumber? row with
  | none => rfl
  | some rest => simp only [Option.map_some,Option.any_some,afterMark_quoted,isComment_quoted]

theorem cut_quoted : cut (row.map Glyph.quoted) = (cut row).map Glyph.quoted := by
  induction row with
  | nil => rfl
  | cons g row ih =>
    have here := isClause_quoted (g :: row)
    rw [List.map_cons] at here ⊢
    rw [cut,cut,here,ih]
    split <;> rfl

end Clauses

end Limit

theorem removeLimit_addQuotes (sql : Bytes) : removeLimit (addQuotes sql) = addQuotes (removeLimit sql) := by
  have row : glyphs (removeLimit (addQuotes sql)) = glyphs (addQuotes (removeLimit sql)) := by
    rw [glyphs_removeLimit,glyphs_addQuotes,Limit.cut_quoted,glyphs_addQuotes,glyphs_removeLimit]
  rw [← spell_glyphs (removeLimit (addQuotes sql)),row,spell_glyphs]

/-- Cutting a clause and quoting identifiers may change places, in a statement and in the whole
treatment of an answer. Cutting only shortens the result, and neither step decides whether a
block was taken. -/
theorem cutting_commutes_with_quoting :
    (∀ sql, removeLimit (addQuotes sql) = addQuotes (removeLimit sql)) ∧
    ∀ (extract : Bool) (text : Bytes),
      (sanitize ⟨extract,true,true⟩ text).sql = addQuotes (sanitize ⟨extract,true,false⟩ text).sql ∧
      (sanitize ⟨extract,true,true⟩ text).sql = removeLimit (sanitize ⟨extract,false,true⟩ text).sql ∧
      (∀ quotes, (sanitize ⟨extract,true,quotes⟩ text).sql <+: (sanitize ⟨extract,false,quotes⟩ text).sql) ∧
      ∀ limit quotes, (sanitize ⟨extract,limit,quotes⟩ text).extracted = (sanitize ⟨extract,false,false⟩ text).extracted := by
  refine ⟨removeLimit_addQuotes,fun extract text => ?_⟩
  have result (limit quotes : Bool) : sanitize ⟨extract,limit,quotes⟩ text =
      ⟨Options.finish ⟨extract,limit,quotes⟩ (clean ((Options.block? ⟨extract,false,false⟩ text).getD text)),
        (Options.block? ⟨extract,false,false⟩ text).isSome⟩ := rfl
  generalize clean ((Options.block? ⟨extract,false,false⟩ text).getD text) = sql at result
  refine ⟨?_,?_,fun quotes => ?_,fun limit quotes => ?_⟩ <;> rw [result,result]
  · rfl
  · exact (removeLimit_addQuotes sql).symm
  · cases quotes with
    | false => exact removeLimit_isPrefix sql
    | true => exact (removeLimit_isPrefix sql).map _

end SqlTidy
