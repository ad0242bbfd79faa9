import SqlTidy.Proofs.Sql.Clause
import SqlTidy.Proofs.Text.Runs

/-! The grammar of LIMIT clauses, in bytes. Removal takes away the longest clause that ends a
statement, whatever else the statement holds and whether or not it is valid UTF-8. -/
namespace SqlTidy
open Utf8

/-- A clause with its parts in the order in which they are written. A part that may be left
out is empty, and a comment is given without its dashes. -/
structure Clause where
  lead : Run isBlank
  word : Bytes
  gap : Run isBlank
  count : Run isDecimal
  before : Run isBlank
  semicolon : Bool
  after : Run isBlank
  comment : Option Bytes
  named : Ascii.sameFold word (utf8 "LIMIT") = true
  apart : gap.chars ≠ []
  number : count.chars ≠ []
  oneLine : ∀ line ∈ comment, Ascii.newline ∉ line

namespace Clause

variable (clause : Clause)

def mark : Bytes := if clause.semicolon then utf8 ";" else []

def remark : Bytes := clause.comment.elim [] (utf8 "--" ++ ·)

/-- The clause up to its comment. -/
def body : Bytes :=
  clause.lead.text ++ clause.word ++ clause.gap.text ++ clause.count.text ++ clause.before.text ++ clause.mark ++
    clause.after.text

def text : Bytes := clause.body ++ clause.remark

end Clause

namespace Limit

section Scan

theorem mem_head?_append (left right : List Glyph) (g : Glyph) (first : g ∈ (left ++ right).head?) :
    g ∈ left ∨ g ∈ right.head? := by
  rw [List.head?_append] at first
  rcases Option.or_eq_some_iff.mp first with early | ⟨_,late⟩
  · exact .inl (List.mem_of_mem_head? early)
  · exact .inr late

theorem afterRun?_of_run (test : Glyph → Bool) (run rest : List Glyph) (some : run ≠ [])
    (passes : ∀ g ∈ run, test g = true) (stop : ∀ g ∈ rest.head?, test g = false) :
    afterRun? test (run ++ rest) = Option.some rest := by
  obtain ⟨g,run,rfl⟩ := List.exists_cons_of_ne_nil some
  obtain ⟨first,others⟩ := List.forall_mem_cons.mp passes
  rw [List.cons_append,afterRun?,if_pos first,dropWhile_run test run rest others stop]

variable (lead word gap count rest : List Glyph)

theorem afterNumber?_of_parts (leads : ∀ g ∈ lead, g.isBlank = true) (named : afterKeyword? word = some [])
    (apart : gap ≠ []) (blank : ∀ g ∈ gap, g.isBlank = true) (number : count ≠ [])
    (decimal : ∀ g ∈ count, g.isDecimal = true) (stop : ∀ g ∈ rest.head?, g.isDecimal = false) :
    afterNumber? (lead ++ (word ++ (gap ++ (count ++ rest)))) = some rest := by
  obtain ⟨l,i,m,j,t,rfl,hl,hi,hm,hj,ht⟩ := afterKeyword?_split word [] named
  have front : (lead ++ ([l,i,m,j,t] ++ [] ++ (gap ++ (count ++ rest)))).dropWhile Glyph.isBlank =
      [l,i,m,j,t] ++ (gap ++ (count ++ rest)) := by
    rw [List.dropWhile_append_of_pos leads,List.append_nil]
    have solid : l.isBlank = false := l.is_disjoint (letter_outside 'L' isBlank (by decide) (by decide)) hl
    exact List.dropWhile_cons_of_neg (by simp [solid])
  have keyword : afterKeyword? ([l,i,m,j,t] ++ (gap ++ (count ++ rest))) = some (gap ++ (count ++ rest)) := by
    simp [afterKeyword?,hl,hi,hm,hj,ht]
  have solid : ∀ g ∈ (count ++ rest).head?, g.isBlank = false := by
    intro g first
    rw [List.head?_append_of_ne_nil _ number] at first
    exact g.decimal_not_blank (decimal g (List.mem_of_mem_head? first))
  rw [afterNumber?,front,keyword,Option.bind_some,afterRun?_of_run _ gap _ apart blank solid,Option.bind_some,
    afterRun?_of_run _ count rest number decimal stop]

theorem afterMark_of_parts (before mark after comment : List Glyph) (blankBefore : ∀ g ∈ before, g.isBlank = true)
    (one : mark = [] ∨ mark = [Glyph.ascii Ascii.semicolon]) (blankAfter : ∀ g ∈ after, g.isBlank = true)
    (begins : ∀ g ∈ comment.head?, g = Glyph.ascii Ascii.dash) :
    afterMark (before ++ (mark ++ (after ++ comment))) = comment := by
  have solid : ∀ g ∈ comment.head?, g.isBlank = false := by
    intro g first
    rw [begins g first]
    decide
  have kept : dropSemicolon comment = comment := by
    cases comment with
    | nil => rfl
    | cons g comment =>
      obtain rfl := begins g rfl
      rfl
  rw [afterMark,List.dropWhile_append_of_pos blankBefore]
  rcases one with rfl | rfl
  · rw [List.nil_append,dropWhile_run _ after comment blankAfter solid,kept]
    exact dropWhile_run _ [] comment (by simp) solid
  · exact dropWhile_run _ after comment blankAfter solid

end Scan

end Limit

/-- A byte is a small letter up to case. -/
theorem byte_of_lower (b c : UInt8) (same : Ascii.toLower b = c) : b = c ∨ b = c - 0x20 := by
  simp only [Ascii.toLower] at same
  split at same
  next => exact .inr (by grind)
  next => exact .inl same

theorem letter_of_lower (b : UInt8) (upper : Char) (listed : upper ∈ ['L','I','M','T'])
    (same : Ascii.toLower b = UInt8.ofNat upper.toLower.toNat) :
    b < 0x80 ∧ Limit.isLetter upper (Glyph.ascii b) = true := by
  simp only [List.mem_cons,List.not_mem_nil,or_false] at listed
  rcases byte_of_lower b _ same with rfl | rfl <;> rcases listed with rfl | rfl | rfl | rfl <;> decide

namespace Clause

section Rows

variable (clause : Clause)

theorem word_row : (∀ b ∈ clause.word, b < 0x80) ∧ Limit.afterKeyword? (clause.word.map Glyph.ascii) = some [] := by
  have folded : clause.word.map Ascii.toLower = [0x6C,0x69,0x6D,0x69,0x74] :=
    (beq_iff_eq.mp clause.named).trans (by decide)
  generalize clause.word = word at folded
  rcases word with _ | ⟨l,_ | ⟨i,_ | ⟨m,_ | ⟨j,_ | ⟨t,_ | ⟨more,word⟩⟩⟩⟩⟩⟩ <;>
    simp only [List.map_cons,List.map_nil,List.cons.injEq,reduceCtorEq,and_false,and_true] at folded
  obtain ⟨hl,hi,hm,hj,ht⟩ := folded
  obtain ⟨smallL,letterL⟩ := letter_of_lower l 'L' (by decide) hl
  obtain ⟨smallI,letterI⟩ := letter_of_lower i 'I' (by decide) hi
  obtain ⟨smallM,letterM⟩ := letter_of_lower m 'M' (by decide) hm
  obtain ⟨smallJ,letterJ⟩ := letter_of_lower j 'I' (by decide) hj
  obtain ⟨smallT,letterT⟩ := letter_of_lower t 'T' (by decide) ht
  constructor
  · simp [smallL,smallI,smallM,smallJ,smallT]
  · simp [Limit.afterKeyword?,letterL,letterI,letterM,letterJ,letterT]

/-- The glyphs from the number to the comment. -/
def closing : List Glyph := clause.before.row ++ (clause.mark.map Glyph.ascii ++ clause.after.row)

theorem mark_cases : clause.mark = [] ∨ clause.mark = [Ascii.semicolon] := by
  unfold mark
  split
  next => exact .inr (by decide)
  next => exact .inl rfl

theorem glyphs_body_append (rest : Bytes) : glyphs (clause.body ++ rest) =
    clause.lead.row ++ (clause.word.map Glyph.ascii ++ (clause.gap.row ++ (clause.count.row ++
      (clause.closing ++ glyphs rest)))) := by
  have marked : ∀ b ∈ clause.mark, b < 0x80 := by
    rcases clause.mark_cases with none | one
    · simp [none]
    · rw [one]
      decide +kernel
  simp only [body,closing,List.append_assoc,Run.glyphs_text_append,glyphs_ascii_append _ _ clause.word_row.1,
    glyphs_ascii_append _ _ marked]

theorem afterNumber?_body (rest : Bytes) (stop : ∀ g ∈ (glyphs rest).head?, g.isDecimal = false) :
    Limit.afterNumber? (glyphs (clause.body ++ rest)) = some (clause.closing ++ glyphs rest) := by
  have blank (run : Run isBlank) (g : Glyph) (member : g ∈ run.row) : g.isDecimal = false :=
    g.is_disjoint (disjoint_symm decimal_not_blank) (run.is_of_mem_row g member)
  have ends : ∀ g ∈ (clause.closing ++ glyphs rest).head?, g.isDecimal = false := by
    intro g first
    rw [closing,List.append_assoc,List.append_assoc] at first
    rcases Limit.mem_head?_append _ _ g first with before | first
    · exact blank _ g before
    · rcases Limit.mem_head?_append _ _ g first with mark | first
      · rcases clause.mark_cases with none | one
        · simp [none] at mark
        · rw [one,List.map_singleton,List.mem_singleton] at mark
          rw [mark]
          decide
      · rcases Limit.mem_head?_append _ _ g first with after | first
        · exact blank _ g after
        · exact stop g first
  rw [glyphs_body_append]
  exact Limit.afterNumber?_of_parts _ _ _ _ _ clause.lead.is_of_mem_row clause.word_row.2
    (by simpa [Run.row] using clause.apart) clause.gap.is_of_mem_row (by simpa [Run.row] using clause.number)
    clause.count.is_of_mem_row ends

theorem afterMark_closing (row : List Glyph) (begins : ∀ g ∈ row.head?, g = Glyph.ascii Ascii.dash) :
    Limit.afterMark (clause.closing ++ row) = row := by
  rw [closing,List.append_assoc,List.append_assoc]
  refine Limit.afterMark_of_parts _ _ _ _ clause.before.is_of_mem_row ?_ clause.after.is_of_mem_row begins
  rcases clause.mark_cases with none | one
  · exact .inl (by simp [none])
  · exact .inr (by simp [one])

theorem glyphs_remark : glyphs clause.remark =
    clause.comment.elim [] fun line => Glyph.ascii Ascii.dash :: Glyph.ascii Ascii.dash :: glyphs line := by
  unfold remark
  cases clause.comment with
  | none => rfl
  | some line => exact glyphs_ascii_append (utf8 "--") line (by decide +kernel)

theorem remark_begins : ∀ g ∈ (glyphs clause.remark).head?, g = Glyph.ascii Ascii.dash := by
  rw [glyphs_remark]
  cases clause.comment with
  | none => simp
  | some line => exact fun g first => (Option.some.inj first).symm

theorem isComment_remark : Limit.isComment (glyphs clause.remark) = true := by
  rw [glyphs_remark]
  cases comment : clause.comment with
  | none => rfl
  | some line =>
    have oneLine : Limit.isLine (glyphs line) = true := by
      rw [Limit.isLine_iff line _ (List.Subset.refl _),spell_glyphs]
      exact clause.oneLine line comment
    exact oneLine

/-- What follows the number of a clause, and what follows its semicolon. -/
theorem afterNumber?_text : Limit.afterNumber? (glyphs clause.text) = some (clause.closing ++ glyphs clause.remark) := by
  refine clause.afterNumber?_body clause.remark fun g first => ?_
  rw [clause.remark_begins g first]
  decide

theorem isClause_text : Limit.isClause (glyphs clause.text) = true := by
  refine (Limit.isClause_iff _).mpr ⟨_,clause.afterNumber?_text,?_⟩
  rw [clause.afterMark_closing _ clause.remark_begins]
  exact clause.isComment_remark

/-- A clause is a glyph for itself at its start, whatever stands before it. -/
theorem glyphs_append_text (front : Bytes) : glyphs (front ++ clause.text) = glyphs front ++ glyphs clause.text := by
  refine glyphs_append _ _ ?_
  have word : ∀ rest, ∀ next ∈ (clause.word ++ rest).head?, isContinuation next = false := by
    intro rest next first
    have small := clause.word_row.1
    cases letters : clause.word with
    | nil =>
      have named := clause.word_row.2
      simp [letters,Limit.afterKeyword?] at named
    | cons b letters' =>
      rw [letters] at first small
      obtain rfl := Option.some.inj first
      exact isContinuation_ascii _ (small _ List.mem_cons_self)
  simp only [text,body,List.append_assoc]
  exact clause.lead.text_stops _ (word _)

end Rows

section Spelling

variable (sql : Bytes)

theorem exists_mark (row : List Glyph) (inside : row ⊆ glyphs sql)
    (one : row = [] ∨ ∃ g, row = [g] ∧ g.is (· == ';') = true) :
    ∃ semicolon : Bool, (if semicolon then utf8 ";" else []) = spell row := by
  rcases one with rfl | ⟨g,rfl,same⟩
  · exact ⟨false,rfl⟩
  · refine ⟨true,?_⟩
    rw [spell_cons,bytes_of_char sql g (inside List.mem_cons_self) ';' (by decide) same]
    decide

theorem exists_remark (row : List Glyph) (inside : row ⊆ glyphs sql) (commented : Limit.isComment row = true) :
    ∃ comment : Option Bytes, (∀ line ∈ comment, Ascii.newline ∉ line) ∧
      comment.elim [] (utf8 "--" ++ ·) = spell row := by
  rcases row with _ | ⟨a,_ | ⟨b,line⟩⟩
  · exact ⟨none,by simp,rfl⟩
  · simp [Limit.isComment] at commented
  · simp only [Limit.isComment,Bool.and_eq_true] at commented
    obtain ⟨⟨first,second⟩,oneLine⟩ := commented
    obtain ⟨inFirst,inRest⟩ := List.cons_subset.mp inside
    obtain ⟨inSecond,inLine⟩ := List.cons_subset.mp inRest
    refine ⟨spell line,?_,?_⟩
    · intro text same
      rw [← Option.some.inj same]
      exact (Limit.isLine_iff sql line inLine).mp oneLine
    · rw [spell_cons,spell_cons,bytes_of_char sql a inFirst '-' (by decide) first,
        bytes_of_char sql b inSecond '-' (by decide) second]
      rfl

/-- Whatever passes for a clause is spelled by the grammar. -/
theorem exists_text (row : List Glyph) (inside : row ⊆ glyphs sql) (found : Limit.isClause row = true) :
    ∃ clause : Clause, clause.text = spell row := by
  obtain ⟨rest,number,commented⟩ := (Limit.isClause_iff row).mp found
  obtain ⟨lead,word,gap,count,rfl,leads,named,⟨apart,blank⟩,some,decimal⟩ := Limit.afterNumber?_split row rest number
  obtain ⟨before,semi,after,split,blankBefore,one,blankAfter⟩ := Limit.afterMark_split rest
  generalize Limit.afterMark rest = comment at split commented
  subst split
  simp only [List.append_subset] at inside
  obtain ⟨inLead,inWord,inGap,inCount,inBefore,inMark,inAfter,inComment⟩ := inside
  obtain ⟨lead,rfl⟩ := Run.exists_row sql lead inLead leads
  obtain ⟨gap,rfl⟩ := Run.exists_row sql gap inGap blank
  obtain ⟨count,rfl⟩ := Run.exists_row sql count inCount decimal
  obtain ⟨before,rfl⟩ := Run.exists_row sql before inBefore blankBefore
  obtain ⟨after,rfl⟩ := Run.exists_row sql after inAfter blankAfter
  obtain ⟨semicolon,marked⟩ := exists_mark sql semi inMark one
  obtain ⟨line,oneLine,spelled⟩ := exists_remark sql comment inComment commented
  have fold : Ascii.sameFold (spell word) (utf8 "LIMIT") = true := by
    rw [Ascii.sameFold,Limit.lower_of_keyword sql word inWord named]
    decide
  refine ⟨⟨lead,spell word,gap,count,before,semicolon,after,line,fold,by simpa [Run.row] using apart,
    by simpa [Run.row] using some,oneLine⟩,?_⟩
  simp only [text,body,mark,remark,marked,spelled,spell_append,Run.spell_row,List.append_assoc]

end Spelling

/-- The clause with one more blank before it. -/
def indented (clause : Clause) (c : Char) (blank : isBlank c = true) : Clause :=
  { clause with lead := (Run.single c blank).append clause.lead }

theorem text_indented (clause : Clause) (c : Char) (blank : isBlank c = true) :
    (clause.indented c blank).text = String.utf8EncodeChar c ++ clause.text := by
  have same : (clause.indented c blank).mark = clause.mark ∧ (clause.indented c blank).remark = clause.remark := ⟨rfl,rfl⟩
  simp only [text,body,same]
  simp only [indented,Run.text_append,Run.text_single,List.append_assoc]

end Clause

/-- The clause is what a statement loses, and no longer one ends the statement. -/
structure Removed (sql : Bytes) (clause : Clause) : Prop where
  split : glyphs sql = glyphs (removeLimit sql) ++ glyphs clause.text
  longest : ∀ piece, piece <:+ glyphs sql → Limit.isClause piece = true → piece <:+ glyphs clause.text

namespace Removed

variable {sql : Bytes} {clause : Clause} (removed : Removed sql clause)
include removed

theorem whole : sql = removeLimit sql ++ clause.text := by
  have spelled := congrArg spell removed.split
  rwa [spell_append,spell_glyphs,spell_glyphs,spell_glyphs] at spelled

theorem suffix_of_text (other : Clause) (suffix : other.text <:+ sql) : other.text <:+ clause.text := by
  have ends : glyphs other.text <:+ glyphs sql := by
    obtain ⟨front,rfl⟩ := suffix
    rw [other.glyphs_append_text]
    exact List.suffix_append _ _
  obtain ⟨front,before⟩ := removed.longest _ ends other.isClause_text
  have spelled := congrArg spell before
  rw [spell_append,spell_glyphs,spell_glyphs] at spelled
  exact ⟨spell front,spelled⟩

theorem no_longer (piece : List Glyph) (some : piece ≠ []) (suffix : piece <:+ glyphs (removeLimit sql)) :
    Limit.isClause (piece ++ glyphs clause.text) = false := by
  cases found : Limit.isClause (piece ++ glyphs clause.text) with
  | false => rfl
  | true =>
    have ends : piece ++ glyphs clause.text <:+ glyphs sql := removed.split ▸ List.suffix_append_self_iff.mpr suffix
    have bound := (removed.longest _ ends found).length_le
    have size := List.length_pos_iff.mpr some
    rw [List.length_append] at bound
    omega

end Removed

theorem removeLimit_cases (sql : Bytes) :
    (removeLimit sql = sql ∧ ∀ clause : Clause, ¬clause.text <:+ sql) ∨ ∃ clause, Removed sql clause := by
  obtain ⟨rest,split,ends,longest⟩ := Limit.cut_longest (glyphs sql)
  rcases ends with rfl | found
  · left
    rw [List.append_nil] at split
    refine ⟨by rw [removeLimit,← split,spell_glyphs],?_⟩
    rintro clause ⟨front,rfl⟩
    have found := clause.isClause_text
    have nothing := longest (glyphs clause.text) (clause.glyphs_append_text front ▸ List.suffix_append _ _) found
    rw [List.suffix_nil.mp nothing] at found
    exact absurd found (by decide)
  · right
    obtain ⟨clause,same⟩ := Clause.exists_text sql rest (split ▸ List.subset_append_right _ _) found
    have read : glyphs clause.text = rest := by rw [same,glyphs_spell_right _ _ sql split]
    exact ⟨clause,by rw [read,glyphs_removeLimit,← split],read ▸ longest⟩

/-- A statement that no clause ends is kept as it is. From any other the longest clause that
ends it is cut off, and what is left does not end with white space. -/
theorem removeLimit_cuts_longest_clause (sql : Bytes) :
    ((∀ clause : Clause, ¬clause.text <:+ sql) → removeLimit sql = sql) ∧
    ((∃ clause : Clause, clause.text <:+ sql) →
      ∃ longest : Clause, sql = removeLimit sql ++ longest.text ∧
        (∀ clause : Clause, clause.text <:+ sql → clause.text.length ≤ longest.text.length) ∧
        ∀ c, isBlank c = true → ¬String.utf8EncodeChar c <:+ removeLimit sql) ∧
    removeLimit sql <+: sql := by
  rcases removeLimit_cases sql with ⟨kept,none⟩ | ⟨longest,removed⟩
  · exact ⟨fun _ => kept,fun ⟨clause,suffix⟩ => absurd suffix (none clause),⟨[],(List.append_nil _).trans kept⟩⟩
  · have ends : longest.text <:+ sql := ⟨_,removed.whole.symm⟩
    have bound (clause : Clause) (suffix : clause.text <:+ sql) : clause.text.length ≤ longest.text.length :=
      (removed.suffix_of_text clause suffix).length_le
    refine ⟨fun none => absurd ends (none longest),fun _ => ⟨longest,removed.whole,bound,?_⟩,⟨_,removed.whole.symm⟩⟩
    -- With a blank in front of it the clause would be longer.
    rintro c blank ⟨front,last⟩
    have longer := bound (longest.indented c blank) ⟨front,by
      rw [longest.text_indented,← List.append_assoc,last,← removed.whole]⟩
    rw [longest.text_indented,List.length_append] at longer
    have some := List.length_pos_iff.mpr (encodes_utf8EncodeChar c).ne_nil
    omega

end SqlTidy
