import SqlTidy.Proofs.Sql.Clause
import SqlTidy.Sql.Sanitize

/-! Lines after a LIMIT clause with a comment. The newline that ends the comment keeps the
clause from being the last one, and removal by itself leaves such a statement alone. But
cleaning makes a space of the newline, the comment then runs to the end, and what stood
on the lines after it goes with the clause. -/
namespace SqlTidy

/-- Further lines of a statement: no comment and no LIMIT, but something besides white
space, digits and semicolons. -/
structure Further (lines : Bytes) : Prop where
  noComment : Bytes.has (utf8 "--") lines = false
  noLimit : Bytes.has (utf8 "limit") (lines.map Ascii.toLower) = false
  word : ∃ g ∈ glyphs lines, Limit.isFiller g = false

namespace Limit

/-- The glyph that a further line begins with. -/
def lineEnd : Glyph := Glyph.ascii Ascii.newline

theorem lineEnd_not_mem_comment (comment : List Glyph) (commented : isComment comment = true) : lineEnd ∉ comment := by
  have notDash : lineEnd.is (· == '-') = false := by decide
  rcases comment with _ | ⟨a,_ | ⟨b,rest⟩⟩
  · simp
  · simp [isComment] at commented
  · simp only [isComment,Bool.and_eq_true] at commented
    obtain ⟨⟨first,second⟩,line⟩ := commented
    intro member
    rcases List.mem_cons.mp member with rfl | later
    · simp [notDash] at first
    · rcases List.mem_cons.mp later with rfl | last
      · simp [notDash] at second
      · have other := List.all_eq_true.mp line _ last
        revert other
        decide

theorem lineEnd_not_mem_keyword (keyword : List Glyph) (named : afterKeyword? keyword = some []) :
    lineEnd ∉ keyword := by
  obtain ⟨l,i,m,j,t,rfl,hl,hi,hm,hj,ht⟩ := afterKeyword?_split keyword [] named
  have notL : isLetter 'L' lineEnd = false := by decide
  have notI : isLetter 'I' lineEnd = false := by decide
  have notM : isLetter 'M' lineEnd = false := by decide
  have notT : isLetter 'T' lineEnd = false := by decide
  intro member
  simp only [List.append_nil,List.mem_cons,List.not_mem_nil,or_false] at member
  rcases member with rfl | rfl | rfl | rfl | rfl <;> simp_all

section Lines

variable (before after : List Glyph)

theorem comment_of_lines (comment : List Glyph) (ends : comment <:+ before ++ lineEnd :: after)
    (commented : isComment comment = true)
    (noComment : ∀ right, right <:+ after → isComment right = true → right = []) : comment = [] := by
  have oneLine := lineEnd_not_mem_comment comment commented
  rcases List.suffix_or_suffix_of_suffix ends (List.suffix_append before (lineEnd :: after)) with within | around
  · rcases List.suffix_cons_iff.mp within with same | within
    · exact absurd (same ▸ List.mem_cons_self) oneLine
    · exact noComment comment within commented
  · exact absurd (around.subset List.mem_cons_self) oneLine

theorem number_of_lines (keyword filler : List Glyph) (ends : keyword ++ filler <:+ before ++ lineEnd :: after)
    (named : afterKeyword? keyword = some [])
    (noLimit : ∀ keyword, keyword <:+: after → afterKeyword? keyword ≠ some []) : after ⊆ filler := by
  have oneLine := lineEnd_not_mem_keyword keyword named
  rcases List.suffix_or_suffix_of_suffix ends (List.suffix_append before (lineEnd :: after)) with within | ⟨early,split⟩
  · rcases List.suffix_cons_iff.mp within with same | within
    · cases keyword with
      | nil => simp [afterKeyword?] at named
      | cons first keyword =>
        obtain ⟨rfl,_⟩ := List.cons.inj same
        exact absurd List.mem_cons_self oneLine
    · exact absurd named (noLimit keyword ((List.prefix_append keyword filler).isInfix.trans within.isInfix))
  -- The line end is behind the keyword, so that all after it is filler.
  · rcases List.append_eq_append_iff.mp split with ⟨last,word,later⟩ | ⟨gap,_,later⟩
    · cases last with
      | nil =>
        rw [List.nil_append] at later
        exact later ▸ List.subset_cons_self _ _
      | cons first last =>
        obtain ⟨rfl,_⟩ := List.cons.inj later
        exact absurd (word ▸ List.mem_append_right _ List.mem_cons_self) oneLine
    · intro g member
      rw [later]
      exact List.mem_append_right _ (List.mem_cons_of_mem _ member)

/-- A line that holds neither a comment nor a LIMIT, but something else than a number, is
not part of a clause. -/
theorem isClause_lines (piece : List Glyph) (ends : piece <:+ before ++ lineEnd :: after)
    (noComment : ∀ right, right <:+ after → isComment right = true → right = [])
    (noLimit : ∀ keyword, keyword <:+: after → afterKeyword? keyword ≠ some [])
    (word : ∃ g ∈ after, isFiller g = false) : isClause piece = false := by
  cases clause : isClause piece with
  | false => rfl
  | true =>
    obtain ⟨front,keyword,filler,comment,split,named,fills,commented⟩ := isClause_split piece clause
    have body : keyword ++ (filler ++ comment) <:+ before ++ lineEnd :: after :=
      (split ▸ List.suffix_append _ _ : keyword ++ (filler ++ comment) <:+ piece).trans ends
    have tail : comment <:+ before ++ lineEnd :: after :=
      ((List.suffix_append filler comment).trans (List.suffix_append keyword _)).trans body
    obtain rfl := comment_of_lines before after comment tail commented noComment
    rw [List.append_nil] at body
    obtain ⟨g,member,solid⟩ := word
    have filled := fills g (number_of_lines before after keyword filler body named noLimit member)
    rw [filled] at solid
    exact solid

end Lines

end Limit

namespace Further

variable {lines : Bytes} (further : Further lines)
include further

theorem no_comment (right : List Glyph) (ends : right <:+ glyphs lines) (commented : Limit.isComment right = true) :
    right = [] := by
  rcases right with _ | ⟨a,_ | ⟨b,rest⟩⟩
  · rfl
  · simp [Limit.isComment] at commented
  · simp only [Limit.isComment,Bool.and_eq_true] at commented
    have first := bytes_of_char lines a (ends.subset (by simp)) '-' (by decide) commented.1.1
    have second := bytes_of_char lines b (ends.subset (by simp)) '-' (by decide) commented.1.2
    have dashes : utf8 "--" <:+: lines := by
      refine List.IsInfix.trans ?_ (spell_within lines _ ends.isInfix)
      rw [spell_cons,spell_cons,first,second]
      exact (List.prefix_append (utf8 "--") (spell rest)).isInfix
    rw [← has_iff,further.noComment] at dashes
    exact absurd dashes Bool.false_ne_true

theorem no_limit (keyword : List Glyph) (inside : keyword <:+: glyphs lines) :
    Limit.afterKeyword? keyword ≠ some [] := by
  intro named
  have spelled := Limit.lower_of_keyword lines keyword inside.subset named
  have found := (spell_within lines _ inside).map Ascii.toLower
  rw [spelled,← has_iff,further.noLimit] at found
  exact Bool.false_ne_true found

end Further

/-- Before further lines no clause is removed. -/
theorem removeLimit_of_further (before after : Bytes) (further : Further after) :
    removeLimit (before ++ Ascii.newline :: after) = before ++ Ascii.newline :: after := by
  have read : glyphs (before ++ Ascii.newline :: after) = glyphs before ++ Limit.lineEnd :: glyphs after :=
    glyphs_append_ascii before _ after (by decide)
  have kept : Limit.cut (glyphs (before ++ Ascii.newline :: after)) = glyphs (before ++ Ascii.newline :: after) := by
    refine Limit.cut_eq_self _ fun piece inside => ?_
    rw [read] at inside
    exact Limit.isClause_lines _ _ piece inside further.no_comment further.no_limit further.word
  rw [removeLimit,kept,spell_glyphs]

section Cleaned

theorem isLine_of_subset (left right : List Glyph) (among : left ⊆ right) (line : Limit.isLine right = true) :
    Limit.isLine left = true :=
  List.all_eq_true.mpr fun g member => List.all_eq_true.mp line g (among member)

theorem isLine_squeeze (text : Bytes) : Limit.isLine (glyphs (squeeze text)) = true := by
  rw [Limit.isLine_iff (squeeze text) _ (List.Subset.refl _),spell_glyphs]
  exact newline_not_mem_squeeze text

/-- Cleaning leaves one line. -/
theorem isLine_clean (text : Bytes) : Limit.isLine (glyphs (clean text)) = true := by
  rw [clean_eq,glyphs_trim]
  refine isLine_of_subset _ _ (fun g member => ?_) (isLine_squeeze text)
  rw [trimRow,List.mem_reverse] at member
  exact (List.dropWhile_sublist _).subset (List.mem_reverse.mp ((List.dropWhile_sublist _).subset member))

theorem head_solid (b : UInt8) (rest : Bytes) (small : b < 0x80) (solid : (Glyph.ascii b).isBlank = false) :
    ∀ g ∈ (glyphs (b :: rest)).head?, g.isBlank = false := by
  rw [glyphs_ascii b rest small]
  intro g first
  rw [← Option.some.inj first]
  exact solid

/-- A comment after a clause, if there is one. -/
def remark : Option Bytes → Bytes
  | none => []
  | some comment => utf8 " --" ++ comment

theorem glyphs_append_remark (text : Bytes) (comment : Option Bytes) :
    glyphs (text ++ remark comment) = glyphs text ++ glyphs (remark comment) := by
  cases comment with
  | none => simp [remark]
  | some comment =>
    refine glyphs_append _ _ fun next first => ?_
    obtain rfl := Option.some.inj first
    decide

theorem squeeze_remark (comment : Option Bytes) : squeeze (remark comment) = remark (comment.map squeeze) := by
  cases comment with
  | none => rfl
  | some comment =>
    have apart : glyphs (utf8 "--" ++ comment) = glyphs (utf8 "--") ++ glyphs comment :=
      glyphs_ascii_append (utf8 "--") comment (by decide +kernel)
    have space : squeeze ([] ++ [Ascii.space]) = [Ascii.space] := by decide
    have split := squeeze_append_space [] (utf8 "--" ++ comment) (head_solid Ascii.dash _ (by decide) (by decide))
    rw [space,squeeze_solid _ _ (by decide +kernel) (by decide +kernel) apart] at split
    exact split

theorem rdropWhile_remark (comment : Bytes) : (glyphs (remark (some comment))).rdropWhile Glyph.isBlank =
    (utf8 " --").map Glyph.ascii ++ (glyphs comment).rdropWhile Glyph.isBlank := by
  rw [remark,glyphs_ascii_append _ _ (by decide +kernel)]
  exact rdropWhile_append_neg _ [Glyph.ascii Ascii.space,Glyph.ascii Ascii.dash] (Glyph.ascii Ascii.dash) _ (by decide)

theorem isEnding_remark (comment : Option Bytes) :
    Limit.isEnding ((glyphs (remark (comment.map squeeze))).rdropWhile Glyph.isBlank) = true := by
  cases comment with
  | none => rfl
  | some comment =>
    have marked (row : List Glyph) : Limit.isEnding ((utf8 " --").map Glyph.ascii ++ row) = Limit.isLine row := rfl
    rw [Option.map_some,rdropWhile_remark,marked]
    exact isLine_of_subset _ _ (List.rdropWhile_prefix Glyph.isBlank _).subset (isLine_squeeze comment)

/-- A statement that ends with a clause, and possibly a comment. -/
def limited (front count : Bytes) (comment : Option Bytes) : Bytes :=
  front ++ (utf8 " LIMIT " ++ (count ++ remark comment))

/-- What cleaning leaves of the statement before the clause. -/
def leadRow (front : Bytes) : List Glyph := (glyphs (squeeze (front ++ [Ascii.space]))).dropWhile Glyph.isBlank

/-- What cleaning leaves of the clause after its first letter. -/
def clauseRow (count : Bytes) (comment : Option Bytes) : List Glyph :=
  (utf8 "IMIT ").map Glyph.ascii ++ (glyphs count ++ (glyphs (remark (comment.map squeeze))).rdropWhile Glyph.isBlank)

variable (front count : Bytes) (some : count ≠ []) (decimal : ∀ g ∈ glyphs count, g.isDecimal = true)
  (comment : Option Bytes)
include some decimal

theorem squeeze_limited : squeeze (limited front count comment) =
    squeeze (front ++ [Ascii.space]) ++ (utf8 "LIMIT " ++ (count ++ remark (comment.map squeeze))) := by
  have solid : ∀ g ∈ glyphs count, g.isBlank = false := fun g member => g.decimal_not_blank (decimal g member)
  have apart := glyphs_append_remark count comment
  have digits : squeeze (count ++ remark comment) = count ++ remark (comment.map squeeze) := by
    rw [squeeze_solid _ _ solid (isPlain_of_digits count decimal) apart,squeeze_remark]
  have word : squeeze (utf8 "LIMIT" ++ [Ascii.space]) = utf8 "LIMIT " := by decide
  have number : squeeze (utf8 "LIMIT" ++ Ascii.space :: (count ++ remark comment)) =
      utf8 "LIMIT " ++ (count ++ remark (comment.map squeeze)) := by
    rw [squeeze_append_space,word,digits]
    intro g first
    rw [apart,List.head?_append_of_ne_nil _ (glyphs_ne_nil count some)] at first
    exact solid g (List.mem_of_mem_head? first)
  exact (squeeze_append_space front _ (head_solid 0x4C _ (by decide) (by decide))).trans (congrArg _ number)

theorem glyphs_clean_limited :
    glyphs (clean (limited front count comment)) = leadRow front ++ Limit.letter :: clauseRow count comment := by
  have read : glyphs (squeeze (limited front count comment)) =
      glyphs (squeeze (front ++ [Ascii.space])) ++ Limit.letter :: ((utf8 "IMIT ").map Glyph.ascii ++
        (glyphs count ++ glyphs (remark (comment.map squeeze)))) := by
    rw [squeeze_limited front count some decimal comment,← glyphs_append_remark,
      ← glyphs_ascii_append (utf8 "IMIT ") _ (by decide +kernel)]
    exact glyphs_append_ascii _ 0x4C _ (by decide)
  obtain ⟨digits,last,split⟩ := (List.eq_nil_or_concat (glyphs count)).resolve_left (glyphs_ne_nil count some)
  have solid : last.isBlank = false := last.decimal_not_blank (decimal last (by simp [split]))
  have stop := rdropWhile_append_neg Glyph.isBlank ((utf8 "IMIT ").map Glyph.ascii ++ digits) last
    (glyphs (remark (comment.map squeeze))) solid
  rw [clean_eq,glyphs_trim,read,trimRow_append _ _ _ (by decide),leadRow,clauseRow,split]
  simp only [List.append_assoc] at stop
  simp only [List.concat_eq_append,List.append_assoc,List.singleton_append,stop]

theorem isLine_clauseRow : Limit.isLine (clauseRow count comment) = true := by
  have line := isLine_clean (limited [] count comment)
  rw [glyphs_clean_limited [] count some decimal comment] at line
  exact isLine_of_subset _ _ (fun g member => by simp [member]) line

theorem isClause_clauseRow : Limit.isClause (Limit.letter :: clauseRow count comment) = true := by
  have ends := isEnding_remark comment
  have other : ∀ g ∈ ((glyphs (remark (comment.map squeeze))).rdropWhile Glyph.isBlank).head?, g.isDecimal = false := by
    cases comment with
    | none => simp [remark]
    | some comment =>
      intro g first
      rw [Option.map_some,rdropWhile_remark] at first
      rw [← Option.some.inj first]
      decide
  unfold clauseRow
  generalize (glyphs (remark (comment.map squeeze))).rdropWhile Glyph.isBlank = ending at ends other ⊢
  obtain ⟨first,digits,split⟩ := List.exists_cons_of_ne_nil (glyphs_ne_nil count some)
  rw [split] at decimal ⊢
  obtain ⟨leads,rest⟩ := List.forall_mem_cons.mp decimal
  have word (row : List Glyph) : (Limit.afterKeyword?
      ((Limit.letter :: ((utf8 "IMIT ").map Glyph.ascii ++ row)).dropWhile Glyph.isBlank)).bind
        (Limit.afterRun? Glyph.isBlank) = Option.some (row.dropWhile Glyph.isBlank) := rfl
  have gap : (first :: digits ++ ending).dropWhile Glyph.isBlank = first :: digits ++ ending :=
    List.dropWhile_cons_of_neg (by simp [first.decimal_not_blank leads])
  have number : (digits ++ ending).dropWhile Glyph.isDecimal = ending := by
    rw [List.dropWhile_append,List.dropWhile_eq_nil_iff.mpr rest]
    cases ending with
    | nil => rfl
    | cons g ending => exact List.dropWhile_cons_of_neg (by simp [other g rfl])
  rw [Limit.isClause,word,gap]
  simp [Limit.afterRun?,leads,number,ends]

/-- Whatever the comment was, it goes with the clause. -/
theorem removeLimit_clean_limited :
    removeLimit (clean (limited front count comment)) = removeLimit (clean (limited front count none)) := by
  rw [removeLimit,removeLimit,glyphs_clean_limited front count some decimal comment,
    glyphs_clean_limited front count some decimal none]
  refine congrArg spell (Limit.cut_congr _ _ _ ?_ ?_ ?_)
  · rw [isLine_clauseRow count some decimal comment,isLine_clauseRow count some decimal none]
  · exact isClause_clauseRow count some decimal comment
  · exact isClause_clauseRow count some decimal none

theorem removeLimit_clean_shorter :
    (removeLimit (clean (limited front count comment))).length < (clean (limited front count comment)).length := by
  obtain ⟨gone,split⟩ := Limit.cut_prefix (leadRow front) _ (isClause_clauseRow count some decimal comment)
  have read := glyphs_clean_limited front count some decimal comment
  have whole := congrArg spell read
  rw [spell_glyphs,← split] at whole
  rw [removeLimit,read,whole]
  simp only [spell_append,spell_cons,List.length_append,Limit.letter,Glyph.ascii,List.length_singleton]
  omega

end Cleaned

theorem sanitize_only_clean (text : Bytes) : (sanitize {} text).sql = clean text := by
  simp [sanitize,Options.block?,Options.finish]

theorem sanitize_removeLimit (text : Bytes) :
    (sanitize {removeLimit := true} text).sql = removeLimit (clean text) := by
  simp [sanitize,Options.block?,Options.finish]

/-- A clause with a comment before further lines. The statement is left as it is by removal
alone. Sanitizing, which cleans first, takes away the lines together with the clause, as
if the statement had ended with the number. -/
theorem sanitize_loses_further_lines (front count comment lines : Bytes) (some : count ≠ [])
    (decimal : ∀ g ∈ glyphs count, g.isDecimal = true) (further : Further lines) :
    let text := front ++ utf8 " LIMIT " ++ count ++ utf8 " --" ++ comment ++ utf8 "\n" ++ lines
    removeLimit text = text ∧
      (sanitize {removeLimit := true} text).sql =
        (sanitize {removeLimit := true} (front ++ utf8 " LIMIT " ++ count)).sql ∧
      (sanitize {removeLimit := true} text).sql ≠ (sanitize {} text).sql := by
  intro text
  have line : text = front ++ utf8 " LIMIT " ++ count ++ utf8 " --" ++ comment ++ Ascii.newline :: lines := by
    simp only [text,List.append_assoc]
    rfl
  have form : text = limited front count (Option.some (comment ++ Ascii.newline :: lines)) := by
    simp only [line,limited,remark,List.append_assoc]
  have short : front ++ utf8 " LIMIT " ++ count = limited front count none := by
    simp only [limited,remark,List.append_assoc,List.append_nil]
  clear_value text
  rw [sanitize_removeLimit,sanitize_removeLimit,sanitize_only_clean]
  refine ⟨?_,?_,?_⟩
  · rw [line]
    exact removeLimit_of_further _ lines further
  · rw [form,short]
    exact removeLimit_clean_limited front count some decimal _
  · rw [form]
    intro same
    have shorter := removeLimit_clean_shorter front count some decimal (Option.some (comment ++ Ascii.newline :: lines))
    exact Nat.ne_of_lt shorter (congrArg List.length same)

theorem sanitize_loses_further_lines_order : Further (utf8 "ORDER BY a") ∧
    let text := utf8 "SELECT * FROM t" ++ utf8 " LIMIT " ++ utf8 "10" ++ utf8 " --" ++ utf8 "note" ++ utf8 "\n" ++
      utf8 "ORDER BY a"
    removeLimit text = text ∧
      (sanitize {removeLimit := true} text).sql =
        (sanitize {removeLimit := true} (utf8 "SELECT * FROM t" ++ utf8 " LIMIT " ++ utf8 "10")).sql ∧
      (sanitize {removeLimit := true} text).sql ≠ (sanitize {} text).sql := by
  have further : Further (utf8 "ORDER BY a") := ⟨by decide,by decide,by decide⟩
  exact ⟨further,sanitize_loses_further_lines _ _ _ _ (by decide) (by decide) further⟩

theorem sanitize_comment_then_line :
    sanitize {removeLimit := true} (utf8 "SELECT * FROM t LIMIT 10 --note\nORDER BY a") =
        ⟨utf8 "SELECT * FROM t",false⟩ ∧
      sanitize {} (utf8 "SELECT * FROM t LIMIT 10 --note\nORDER BY a") =
        ⟨utf8 "SELECT * FROM t LIMIT 10 --note ORDER BY a",false⟩ := by
  decide

end SqlTidy
