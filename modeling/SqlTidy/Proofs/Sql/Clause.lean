import SqlTidy.Proofs.Sql.Cleaning
import SqlTidy.Sql.Limit

/-! LIMIT clauses in a row of glyphs. Whether a clause starts somewhere is decided before
the next LIMIT; of what comes from there on it matters only if a newline is among it.
And a clause has a keyword, then nothing but white space, digits and semicolons, and
possibly a comment. What is cut off is the longest clause that ends the row. -/
namespace SqlTidy

theorem decimal_not_blank (c : Char) (decimal : isDecimal c = true) : isBlank c = false := by
  have runs : ∀ run ∈ digitRuns, (run.1 = 0x30 ∧ run.2 = 0x39) ∨ (0xA1 ≤ run.1 ∧ run.2 < 0x1680) ∨
      (0x1680 < run.1 ∧ run.2 < 0x2000) ∨ 0x3000 < run.1 := by decide
  simp only [isDecimal,List.any_eq_true,Bool.and_eq_true,decide_eq_true_eq] at decimal
  obtain ⟨run,member,least,most⟩ := decimal
  have place := runs run member
  cases blank : isBlank c with
  | false => rfl
  | true =>
    simp only [isBlank,Bool.or_eq_true,Bool.and_eq_true,decide_eq_true_eq,beq_iff_eq] at blank
    omega

theorem disjoint_symm {left right : Char → Bool} (disjoint : ∀ c, left c = true → right c = false) (c : Char)
    (inside : right c = true) : left c = false := by
  cases both : left c with
  | false => rfl
  | true => exact inside.symm.trans (disjoint c both)

theorem Glyph.is_disjoint (g : Glyph) {left right : Char → Bool} (disjoint : ∀ c, left c = true → right c = false)
    (inside : g.is left = true) : g.is right = false := by
  obtain ⟨c,read,passes⟩ := (Option.any_eq_true ..).mp inside
  simp only [Glyph.is,read,Option.any_some]
  exact disjoint c passes

theorem Glyph.decimal_not_blank (g : Glyph) (decimal : g.isDecimal = true) : g.isBlank = false :=
  g.is_disjoint SqlTidy.decimal_not_blank decimal

/-- The bytes of digits stand in no marker. -/
theorem isPlain_of_digits (digits : Bytes) (decimal : ∀ g ∈ glyphs digits, g.isDecimal = true) :
    ∀ b ∈ digits, isPlain b = true := by
  have marked : ∀ marker ∈ markers, ∀ b ∈ marker, b < 0x80 ∧ (Glyph.ascii b).isDecimal = false := by decide +kernel
  intro b member
  refine List.all_eq_true.mpr fun marker listed => ?_
  cases inside : marker.contains b with
  | false => rfl
  | true =>
    obtain ⟨small,other⟩ := marked marker listed b (by simpa using inside)
    simp [decimal _ (ascii_mem_glyphs digits b member small)] at other

namespace Limit

theorem letter_outside (upper : Char) (other : Char → Bool) (high : other upper = false)
    (low : other upper.toLower = false) (c : Char) (letter : (c == upper || c == upper.toLower) = true) :
    other c = false := by
  have either : c = upper ∨ c = upper.toLower := by simpa using letter
  rcases either with rfl | rfl
  · exact high
  · exact low

/-- The glyph that a further clause begins with. -/
def letter : Glyph := Glyph.ascii 0x4C

section Congruence

/-- The keyword does not reach into what begins with none of its later letters. -/
theorem afterKeyword?_append (row : List Glyph) (g : Glyph) (rest : List Glyph) (some : row ≠ [])
    (notI : isLetter 'I' g = false) (notM : isLetter 'M' g = false) (notT : isLetter 'T' g = false) :
    afterKeyword? (row ++ g :: rest) = (afterKeyword? row).map (· ++ g :: rest) := by
  rcases row with _ | ⟨l,_ | ⟨i,_ | ⟨m,_ | ⟨j,_ | ⟨t,row⟩⟩⟩⟩⟩
  · exact absurd rfl some
  · rcases rest with _ | ⟨a,_ | ⟨b,_ | ⟨c,rest⟩⟩⟩ <;> simp [afterKeyword?,notI]
  · rcases rest with _ | ⟨a,_ | ⟨b,rest⟩⟩ <;> simp [afterKeyword?,notM]
  · rcases rest with _ | ⟨a,rest⟩ <;> simp [afterKeyword?,notI]
  · simp [afterKeyword?,notT]
  · simp only [List.cons_append,afterKeyword?]
    split <;> rfl

theorem afterRun?_append (test : Glyph → Bool) (row : List Glyph) (g : Glyph) (rest : List Glyph)
    (fails : test g = false) : afterRun? test (row ++ g :: rest) = (afterRun? test row).map (· ++ g :: rest) := by
  cases row with
  | nil => simp [afterRun?,fails]
  | cons first row =>
    simp only [List.cons_append,afterRun?]
    split
    next => rw [dropWhile_append_neg test row g rest fails]; rfl
    next => rfl

theorem dropSemicolon_append (row : List Glyph) (g : Glyph) (rest : List Glyph) (other : g.is (· == ';') = false) :
    dropSemicolon (row ++ g :: rest) = dropSemicolon row ++ g :: rest := by
  cases row with
  | nil => simp [dropSemicolon,other]
  | cons first row =>
    simp only [List.cons_append,dropSemicolon]
    split <;> rfl

def isLine (row : List Glyph) : Bool := row.all fun g => !g.is (· == '\n')

variable (row left right : List Glyph)

theorem isComment_congr (alike : isLine left = isLine right) :
    isComment (row ++ letter :: left) = isComment (row ++ letter :: right) := by
  have notDash : letter.is (· == '-') = false := by decide
  rcases row with _ | ⟨a,_ | ⟨b,row⟩⟩
  · cases left <;> cases right <;> simp [isComment,notDash]
  · simp [isComment,notDash]
  · simp only [isLine] at alike
    simp only [List.cons_append,isComment,List.all_append,List.all_cons,alike]

theorem isEnding_congr (alike : isLine left = isLine right) :
    isEnding (row ++ letter :: left) = isEnding (row ++ letter :: right) := by
  have solid : letter.isBlank = false := by decide
  have other : letter.is (· == ';') = false := by decide
  simp only [isEnding,dropWhile_append_neg _ _ _ _ solid,dropSemicolon_append _ _ _ other]
  exact isComment_congr _ left right alike

/-- Behind a further LIMIT only newlines matter. -/
theorem isClause_congr (alike : isLine left = isLine right) (begun : ∃ g ∈ row, g.isBlank = false) :
    isClause (row ++ letter :: left) = isClause (row ++ letter :: right) := by
  have solid : letter.isBlank = false := by decide
  have other : letter.isDecimal = false := by decide
  have some : row.dropWhile Glyph.isBlank ≠ [] := by
    obtain ⟨g,member,visible⟩ := begun
    intro none
    have blank := List.dropWhile_eq_nil_iff.mp none g member
    simp [visible] at blank
  have word (rest : List Glyph) := afterKeyword?_append (row.dropWhile Glyph.isBlank) letter rest some
    (by decide) (by decide) (by decide)
  simp only [isClause,dropWhile_append_neg _ _ _ _ solid,word,Option.bind_map]
  cases afterKeyword? (row.dropWhile Glyph.isBlank) with
  | none => rfl
  | some rest =>
    simp only [Option.bind_some,Function.comp_apply,afterRun?_append _ _ _ _ solid]
    cases afterRun? Glyph.isBlank rest with
    | none => rfl
    | some rest =>
      simp only [Option.map_some,afterRun?_append _ _ _ _ other]
      cases afterRun? Glyph.isDecimal rest with
      | none => rfl
      | some rest => exact isEnding_congr rest left right alike

theorem isClause_blanks (blanks row : List Glyph) (blank : ∀ g ∈ blanks, g.isBlank = true) :
    isClause (blanks ++ row) = isClause row := by
  rw [isClause,isClause,List.dropWhile_append_of_pos blank]

theorem cut_congr (alike : isLine left = isLine right) (leftClause : isClause (letter :: left) = true)
    (rightClause : isClause (letter :: right) = true) : cut (row ++ letter :: left) = cut (row ++ letter :: right) := by
  induction row with
  | nil => simp [cut,leftClause,rightClause]
  | cons g row ih =>
    have same : isClause (g :: row ++ letter :: left) = isClause (g :: row ++ letter :: right) := by
      by_cases begun : ∃ h ∈ g :: row, h.isBlank = false
      · exact isClause_congr _ left right alike begun
      · have blank : ∀ h ∈ g :: row, h.isBlank = true := by
          intro h member
          by_contra visible
          exact begun ⟨h,member,by simpa using visible⟩
        rw [isClause_blanks _ _ blank,isClause_blanks _ _ blank,leftClause,rightClause]
    simp only [List.cons_append] at same ⊢
    rw [cut,cut,same,ih]

end Congruence

section Parts

/-- What stands between the keyword of a clause and its end or its comment. -/
def isFiller (g : Glyph) : Bool := g.isBlank || g.isDecimal || g.is (· == ';')

theorem afterRun?_split (test : Glyph → Bool) (row rest : List Glyph) (found : afterRun? test row = some rest) :
    ∃ run, row = run ++ rest ∧ run ≠ [] ∧ ∀ g ∈ run, test g = true := by
  cases row with
  | nil => simp [afterRun?] at found
  | cons first row =>
    simp only [afterRun?] at found
    split at found
    next passes =>
      rw [← Option.some.inj found]
      refine ⟨first :: row.takeWhile test,?_,by simp,?_⟩
      · rw [List.cons_append,List.takeWhile_append_dropWhile]
      · exact List.forall_mem_cons.mpr ⟨passes,fun g member => List.mem_takeWhile_imp member⟩
    next => simp at found

theorem afterKeyword?_split (row rest : List Glyph) (found : afterKeyword? row = some rest) :
    ∃ l i m j t, row = [l,i,m,j,t] ++ rest ∧ isLetter 'L' l = true ∧ isLetter 'I' i = true ∧
      isLetter 'M' m = true ∧ isLetter 'I' j = true ∧ isLetter 'T' t = true := by
  rcases row with _ | ⟨l,_ | ⟨i,_ | ⟨m,_ | ⟨j,_ | ⟨t,row⟩⟩⟩⟩⟩ <;> simp only [afterKeyword?] at found
  case cons.cons.cons.cons.cons =>
    split at found
    next letters =>
      simp only [Bool.and_eq_true] at letters
      obtain ⟨⟨⟨⟨hl,hi⟩,hm⟩,hj⟩,ht⟩ := letters
      rw [← Option.some.inj found]
      exact ⟨l,i,m,j,t,rfl,hl,hi,hm,hj,ht⟩
    next => simp at found
  all_goals simp at found

/-- What follows the number of a clause. -/
def afterNumber? (row : List Glyph) : Option (List Glyph) :=
  ((afterKeyword? (row.dropWhile Glyph.isBlank)).bind (afterRun? Glyph.isBlank)).bind (afterRun? Glyph.isDecimal)

/-- What follows the semicolon of a clause and the white space around it. -/
def afterMark (row : List Glyph) : List Glyph :=
  (dropSemicolon (row.dropWhile Glyph.isBlank)).dropWhile Glyph.isBlank

theorem isClause_eq (row : List Glyph) :
    isClause row = (afterNumber? row).any fun rest => isComment (afterMark rest) := by
  unfold isClause afterNumber?
  cases (afterKeyword? (row.dropWhile Glyph.isBlank)).bind (afterRun? Glyph.isBlank) with
  | none => rfl
  | some rest => cases number : afterRun? Glyph.isDecimal rest <;> simp [number,isEnding,afterMark]

theorem isClause_iff (row : List Glyph) :
    isClause row = true ↔ ∃ rest, afterNumber? row = some rest ∧ isComment (afterMark rest) = true := by
  rw [isClause_eq,Option.any_eq_true]

theorem afterNumber?_split (row rest : List Glyph) (found : afterNumber? row = some rest) :
    ∃ lead word gap count, row = lead ++ (word ++ (gap ++ (count ++ rest))) ∧ (∀ g ∈ lead, g.isBlank = true) ∧
      afterKeyword? word = some [] ∧ (gap ≠ [] ∧ ∀ g ∈ gap, g.isBlank = true) ∧
      count ≠ [] ∧ ∀ g ∈ count, g.isDecimal = true := by
  unfold afterNumber? at found
  obtain ⟨afterGap,named,number⟩ := Option.bind_eq_some_iff.mp found
  obtain ⟨afterWord,word,gap⟩ := Option.bind_eq_some_iff.mp named
  obtain ⟨l,i,m,j,t,split,hl,hi,hm,hj,ht⟩ := afterKeyword?_split _ _ word
  obtain ⟨blanks,rfl,gapBlank⟩ := afterRun?_split _ _ _ gap
  obtain ⟨digits,rfl,decimal⟩ := afterRun?_split _ _ _ number
  refine ⟨row.takeWhile Glyph.isBlank,[l,i,m,j,t],blanks,digits,?_,?_,?_,gapBlank,decimal⟩
  · rw [← split,List.takeWhile_append_dropWhile]
  · exact fun g member => List.mem_takeWhile_imp member
  · simp [afterKeyword?,hl,hi,hm,hj,ht]

theorem afterMark_split (row : List Glyph) :
    ∃ before mark after, row = before ++ (mark ++ (after ++ afterMark row)) ∧ (∀ g ∈ before, g.isBlank = true) ∧
      (mark = [] ∨ ∃ g, mark = [g] ∧ g.is (· == ';') = true) ∧ ∀ g ∈ after, g.isBlank = true := by
  have semicolon (row : List Glyph) :
      ∃ mark, row = mark ++ dropSemicolon row ∧ (mark = [] ∨ ∃ g, mark = [g] ∧ g.is (· == ';') = true) := by
    cases row with
    | nil => exact ⟨[],rfl,.inl rfl⟩
    | cons g row =>
      simp only [dropSemicolon]
      split
      next marked => exact ⟨[g],rfl,.inr ⟨g,rfl,marked⟩⟩
      next => exact ⟨[],rfl,.inl rfl⟩
  obtain ⟨mark,marked,one⟩ := semicolon (row.dropWhile Glyph.isBlank)
  refine ⟨row.takeWhile Glyph.isBlank,mark,
    (dropSemicolon (row.dropWhile Glyph.isBlank)).takeWhile Glyph.isBlank,?_,?_,one,?_⟩
  · rw [afterMark,List.takeWhile_append_dropWhile,← marked,List.takeWhile_append_dropWhile]
  · exact fun g member => List.mem_takeWhile_imp member
  · exact fun g member => List.mem_takeWhile_imp member

theorem isClause_split (row : List Glyph) (clause : isClause row = true) :
    ∃ front keyword filler comment, row = front ++ (keyword ++ (filler ++ comment)) ∧
      afterKeyword? keyword = some [] ∧ (∀ g ∈ filler, isFiller g = true) ∧ isComment comment = true := by
  obtain ⟨rest,number,commented⟩ := (isClause_iff row).mp clause
  obtain ⟨lead,word,gap,count,split,_,named,⟨_,gapBlank⟩,_,decimal⟩ := afterNumber?_split row rest number
  obtain ⟨before,mark,after,ending,beforeBlank,marked,afterBlank⟩ := afterMark_split rest
  refine ⟨lead,word,gap ++ (count ++ (before ++ (mark ++ after))),afterMark rest,?_,named,?_,commented⟩
  · rw [split]
    simpa only [List.append_assoc] using congrArg (fun rest => lead ++ (word ++ (gap ++ (count ++ rest)))) ending
  · have semicolon : ∀ g ∈ mark, isFiller g = true := by
      rcases marked with rfl | ⟨g,rfl,mark⟩
      · simp
      · simp [isFiller,mark]
    simp only [List.forall_mem_append]
    exact ⟨fun g member => by simp [isFiller,gapBlank g member],fun g member => by simp [isFiller,decimal g member],
      fun g member => by simp [isFiller,beforeBlank g member],semicolon,
      fun g member => by simp [isFiller,afterBlank g member]⟩

end Parts

section Cut

variable (row : List Glyph)

/-- Where no clause starts the row is kept. -/
theorem cut_append (front rest : List Glyph)
    (none : ∀ piece, piece ≠ [] → piece <:+ front → isClause (piece ++ rest) = false) :
    cut (front ++ rest) = front ++ cut rest := by
  induction front with
  | nil => rfl
  | cons g front ih =>
    have here : isClause (g :: (front ++ rest)) = false := none (g :: front) (by simp) List.suffix_rfl
    have later := ih fun piece some suffix => none piece some (suffix.trans (List.suffix_cons g front))
    rw [List.cons_append,cut,here,later]
    rfl

theorem cut_eq_self (none : ∀ piece, piece <:+ row → isClause piece = false) : cut row = row := by
  have kept := cut_append row [] fun piece _ suffix => by rw [List.append_nil,none piece suffix]
  rwa [List.append_nil,cut,List.append_nil] at kept

/-- What is cut off is the longest clause that ends the row. -/
theorem cut_longest :
    ∃ rest, row = cut row ++ rest ∧ (rest = [] ∨ isClause rest = true) ∧
      ∀ piece, piece <:+ row → isClause piece = true → piece <:+ rest := by
  induction row with
  | nil => exact ⟨[],rfl,.inl rfl,fun piece suffix _ => suffix⟩
  | cons g row ih =>
    rw [cut]
    split
    next clause => exact ⟨g :: row,rfl,.inr clause,fun piece suffix _ => suffix⟩
    next other =>
      obtain ⟨rest,split,ends,longest⟩ := ih
      refine ⟨rest,congrArg (g :: ·) split,ends,fun piece suffix clause => ?_⟩
      rcases List.suffix_cons_iff.mp suffix with rfl | later
      · exact absurd clause other
      · exact longest piece later clause

theorem cut_isPrefix : cut row <+: row := by
  obtain ⟨rest,split,_⟩ := cut_longest row
  exact ⟨rest,split.symm⟩

theorem cut_prefix (clause : List Glyph) (found : isClause clause = true) : cut (row ++ clause) <+: row := by
  obtain ⟨rest,split,_,longest⟩ := cut_longest (row ++ clause)
  obtain ⟨more,rfl⟩ := longest clause (List.suffix_append row clause) found
  rw [← List.append_assoc] at split
  exact ⟨more,(List.append_cancel_right split).symm⟩

/-- A blank before a clause belongs to the clause, so that none is left at the end. -/
theorem cut_ends (solid : ∀ g ∈ row.getLast?, g.isBlank = false) : ∀ g ∈ (cut row).getLast?, g.isBlank = false := by
  intro g last
  obtain ⟨rest,split,ends,longest⟩ := cut_longest row
  obtain ⟨front,kept⟩ := List.getLast?_eq_some_iff.mp last
  rw [kept,List.append_assoc,List.singleton_append] at split
  rcases ends with rfl | clause
  · exact solid g (by simp [split])
  · refine Bool.eq_false_iff.mpr fun blank => ?_
    have longer := longest (g :: rest) ⟨front,split.symm⟩ ((isClause_blanks [g] rest (by simpa using blank)).trans clause)
    exact absurd longer.length_le (Nat.not_succ_le_self _)

end Cut

section Bytes

theorem lower_of_letter (text : Bytes) (g : Glyph) (member : g ∈ glyphs text) (upper : Char)
    (listed : upper ∈ ['L','I','M','T']) (letter : isLetter upper g = true) :
    g.bytes.map Ascii.toLower = [UInt8.ofNat upper.toLower.toNat] := by
  obtain ⟨small,smallLower,lower,lowerLower⟩ : upper.toNat < 0x80 ∧ upper.toLower.toNat < 0x80 ∧
      Ascii.toLower (UInt8.ofNat upper.toNat) = UInt8.ofNat upper.toLower.toNat ∧
      Ascii.toLower (UInt8.ofNat upper.toLower.toNat) = UInt8.ofNat upper.toLower.toNat := by
    simp only [List.mem_cons,List.not_mem_nil,or_false] at listed
    rcases listed with rfl | rfl | rfl | rfl <;> decide
  have either : g.is (· == upper) = true ∨ g.is (· == upper.toLower) = true := by
    simp only [isLetter,Glyph.is,Option.any_eq_true,Bool.or_eq_true] at letter ⊢
    obtain ⟨x,read,same | same⟩ := letter
    · exact .inl ⟨x,read,same⟩
    · exact .inr ⟨x,read,same⟩
  rcases either with same | same
  · rw [bytes_of_char text g member upper small same,List.map_singleton,lower]
  · rw [bytes_of_char text g member _ smallLower same,List.map_singleton,lowerLower]

theorem lower_of_keyword (text : Bytes) (keyword : List Glyph) (inside : keyword ⊆ glyphs text)
    (named : afterKeyword? keyword = some []) : (spell keyword).map Ascii.toLower = utf8 "limit" := by
  obtain ⟨l,i,m,j,t,rfl,hl,hi,hm,hj,ht⟩ := afterKeyword?_split keyword [] named
  have lower (g : Glyph) (member : g ∈ [l,i,m,j,t] ++ []) := lower_of_letter text g (inside member)
  simp only [List.append_nil,spell_cons,spell_nil,List.map_append,
    lower l (by simp) 'L' (by decide) hl,lower i (by simp) 'I' (by decide) hi,lower m (by simp) 'M' (by decide) hm,
    lower j (by simp) 'I' (by decide) hj,lower t (by simp) 'T' (by decide) ht]
  decide

theorem isLine_iff (text : Bytes) (row : List Glyph) (inside : row ⊆ glyphs text) :
    isLine row = true ↔ Ascii.newline ∉ spell row := by
  constructor
  · intro line member
    obtain ⟨g,among,found⟩ := List.mem_flatMap.mp member
    have other := List.all_eq_true.mp line g among
    rw [glyph_of_byte text g (inside among) _ found (by decide)] at other
    revert other
    decide
  · intro absent
    refine List.all_eq_true.mpr fun g member => ?_
    cases newline : g.is (· == '\n') with
    | false => rfl
    | true =>
      have spelled := bytes_of_char text g (inside member) '\n' (by decide) newline
      exact absurd (List.mem_flatMap.mpr ⟨g,member,by rw [spelled]; exact List.mem_singleton.mpr rfl⟩) absent

end Bytes

end Limit

theorem glyphs_removeLimit (sql : Bytes) : glyphs (removeLimit sql) = Limit.cut (glyphs sql) := by
  obtain ⟨rest,split⟩ := Limit.cut_isPrefix (glyphs sql)
  exact glyphs_spell_left _ rest sql split.symm

theorem removeLimit_isPrefix (sql : Bytes) : removeLimit sql <+: sql := by
  obtain ⟨rest,split⟩ := Limit.cut_isPrefix (glyphs sql)
  have whole := congrArg spell split
  rw [spell_append,spell_glyphs] at whole
  exact ⟨spell rest,whole⟩

end SqlTidy
