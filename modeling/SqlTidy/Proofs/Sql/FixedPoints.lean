import SqlTidy.Proofs.Sql.Words

/-! The texts that cleaning leaves alone. They hold no marker, and white space in them is a
single space between two words. What cleaning makes of a text without markers is of this
form, so a second cleaning changes nothing there. -/
namespace SqlTidy
open Utf8

/-- A text with nothing to clean. -/
structure Tidy (text : Bytes) : Prop where
  unmarked : ∀ marker ∈ markers, ¬marker <:+: text
  begins : ∀ c, isBlank c = true → ¬String.utf8EncodeChar c <+: text
  ends : ∀ c, isBlank c = true → ¬String.utf8EncodeChar c <:+ text
  space : ∀ c, isBlank c = true → String.utf8EncodeChar c <:+: text → c = ' '
  apart : ∀ c d, isBlank c = true → isBlank d = true → ¬String.utf8EncodeChar c ++ String.utf8EncodeChar d <:+: text

section Rows

/-- A row of words with a space between one and the next. -/
structure Separated (row : List Glyph) : Prop where
  begins : ∀ g ∈ row.head?, g.isBlank = false
  ends : ∀ g ∈ row.getLast?, g.isBlank = false
  space : ∀ g ∈ row, g.isBlank = true → g = Glyph.ofChar ' '
  apart : ∀ g h, g.isBlank = true → h.isBlank = true → ¬[g,h] <:+: row

variable (text : Bytes)

theorem Tidy.separated (tidy : Tidy text) : Separated (glyphs text) where
  begins := (not_prefix_iff isBlank text).mp tidy.begins
  ends := (not_suffix_iff isBlank text).mp tidy.ends
  space := (infix_only_iff isBlank text ' ').mp tidy.space
  apart g h white next inside := by
    obtain ⟨c,blank,rfl⟩ := exists_ofChar text g (inside.subset (by simp)) isBlank white
    obtain ⟨d,blank',rfl⟩ := exists_ofChar text h (inside.subset (by simp)) isBlank next
    refine tidy.apart c d blank blank' ?_
    rw [← Run.text_single c blank,← Run.text_single d blank',← Run.text_append,
      Run.text_infix_iff _ _ (by simp [Run.append,Run.single])]
    exact inside

variable {text} in
theorem Separated.tidy (unmarked : ∀ marker ∈ markers, ¬marker <:+: text) (separated : Separated (glyphs text)) :
    Tidy text where
  unmarked := unmarked
  begins := (not_prefix_iff isBlank text).mpr separated.begins
  ends := (not_suffix_iff isBlank text).mpr separated.ends
  space := (infix_only_iff isBlank text ' ').mpr separated.space
  apart c d blank next inside := by
    rw [← Run.text_single c blank,← Run.text_single d next,← Run.text_append,
      Run.text_infix_iff _ _ (by simp [Run.append,Run.single])] at inside
    exact separated.apart (Glyph.ofChar c) (Glyph.ofChar d) blank next inside

end Rows

section Kept

theorem collapse_eq_self (row : List Glyph) (space : ∀ g ∈ row, g.isBlank = true → g = Glyph.ofChar ' ')
    (apart : ∀ g h, g.isBlank = true → h.isBlank = true → ¬[g,h] <:+: row) : collapse row = row := by
  induction row with
  | nil => rfl
  | cons g row ih =>
    obtain ⟨first,others⟩ := List.forall_mem_cons.mp space
    have rest := ih others fun k h white next inside =>
      apart k h white next (inside.trans (List.suffix_cons g row).isInfix)
    rw [collapse_cons,rest]
    split
    next white =>
      have alone : row.head?.any Glyph.isBlank = false := by
        cases row with
        | nil => rfl
        | cons h row => exact Bool.eq_false_iff.mpr fun next => apart g h white next ⟨[],row,rfl⟩
      rw [alone,first white]
      rfl
    next => rfl

theorem clean_eq_self (text : Bytes) (tidy : Tidy text) : clean text = text := by
  have row := tidy.separated
  rw [clean_eq,squeeze,collapse_eq_self (glyphs text) row.space row.apart,spell_glyphs,strip_eq_self text tidy.unmarked,
    trim_eq_self text row.begins row.ends]

end Kept

section Unmarked

variable (text : Bytes) (unmarked : ∀ marker ∈ markers, ¬marker <:+: text)
include unmarked

theorem clean_unmarked : clean text = spaced (words text) := by
  have kept (word : Bytes) (found : word ∈ words text) : strip word = word := by
    refine strip_eq_self word fun marker listed inside => unmarked marker listed (inside.trans ?_)
    have part := spell_within text _ (words_within text word found)
    rwa [spell_glyphs] at part
  rw [clean_eq_words,List.map_congr_left kept,List.map_id']
  exact trim_spaced_self _ (words_solid text) (fun word first => words_some text word (List.mem_of_mem_head? first))
    fun word last => words_some text word (List.mem_of_getLast? last)

theorem unmarked_clean : ∀ marker ∈ markers, ¬marker <:+: clean text := by
  have solid : ∀ marker ∈ markers, Ascii.space ∉ marker := by decide +kernel
  have absent : ∀ marker ∈ markers, ¬marker <:+: spell (collapse (glyphs text)) := by
    intro marker listed inside
    have part := within_of_collapse (glyphs text) marker (solid marker listed) inside
    rw [spell_glyphs] at part
    exact unmarked marker listed part
  intro marker listed inside
  have part := within_squeeze_of_clean text marker inside
  rw [squeeze,strip_eq_self _ absent] at part
  exact absent marker listed part

theorem separated_clean : Separated (glyphs (clean text)) where
  begins := by
    rw [clean_eq,glyphs_trim]
    exact trimmed_begins Glyph.isBlank _
  ends := by
    rw [clean_eq,glyphs_trim]
    exact trimmed_ends Glyph.isBlank _
  space g member white := by
    rw [clean_unmarked text unmarked] at member
    rcases mem_glyphs_spaced _ g member with rfl | ⟨word,found,inside⟩
    · rfl
    · exact absurd (white.symm.trans (words_solid text word found g inside)) (by decide)
  apart g h white next := by
    rw [clean_unmarked text unmarked]
    exact spaced_apart _ (words_solid text) (words_some text) g h white next

theorem tidy_clean : Tidy (clean text) := (separated_clean text unmarked).tidy (unmarked_clean text unmarked)

end Unmarked

section Length

theorem erase_shorter (marker text : Bytes) (some : marker ≠ []) (inside : marker <:+: text) :
    (erase marker text).length < text.length := by
  induction text with
  | nil => exact absurd (List.infix_nil.mp inside) some
  | cons b text ih =>
    rw [erase,eraseFrom]
    split
    next => exact Nat.lt_succ_of_le (eraseFrom_sublist marker _ text).length_le
    next other =>
      rcases List.infix_cons_iff.mp inside with start | later
      · exact absurd (List.isPrefixOf_iff_prefix.mpr start) other
      · exact Nat.succ_lt_succ (ih later)

theorem unmarked_of_strip (text : Bytes) (kept : strip text = text) : ∀ marker ∈ markers, ¬marker <:+: text := by
  have some : ∀ marker ∈ markers, marker ≠ [] := by decide
  unfold strip at kept
  generalize markers = list at kept some ⊢
  induction list with
  | nil => simp
  | cons marker list ih =>
    obtain ⟨first,others⟩ := List.forall_mem_cons.mp some
    rw [List.foldl_cons] at kept
    have whole := foldl_erase_sublist list (erase marker text)
    rw [kept] at whole
    have same := (erase_sublist marker text).antisymm whole
    rw [same] at kept
    refine List.forall_mem_cons.mpr ⟨fun inside => ?_,ih kept others⟩
    have shorter := erase_shorter marker text first inside
    rw [same] at shorter
    exact Nat.lt_irrefl _ shorter

theorem length_collapse (row : List Glyph) (some : ∀ g ∈ row, g.bytes ≠ []) :
    (spell (collapse row)).length ≤ (spell row).length := by
  induction row with
  | nil => exact Nat.le_refl _
  | cons g row ih =>
    obtain ⟨first,others⟩ := List.forall_mem_cons.mp some
    have rest := ih others
    rw [collapse_cons]
    split
    next =>
      have short : (spell (if row.head?.any Glyph.isBlank then [] else [Glyph.ofChar ' '])).length ≤ 1 := by
        split <;> decide
      have positive := List.length_pos_iff.mpr first
      rw [spell_append,spell_cons,List.length_append,List.length_append]
      omega
    next => simpa using rest

/-- No step of cleaning makes a text longer, so in a text that stays as it is none took anything out. -/
theorem unmarked_of_clean (text : Bytes) (fixed : clean text = text) : ∀ marker ∈ markers, ¬marker <:+: text := by
  have some : ∀ g ∈ glyphs text, g.bytes ≠ [] := by
    intro g member
    rcases mem_glyphs text g member with ⟨b,_,_,rfl⟩ | ⟨some,_⟩
    · simp [Glyph.ascii]
    · exact some
  have collapsed := length_collapse (glyphs text) some
  have stripped := strip_sublist (spell (collapse (glyphs text)))
  have trimmed := within_squeeze_of_clean text _ List.infix_rfl
  rw [fixed,squeeze] at trimmed
  rw [spell_glyphs] at collapsed
  have kept := stripped.eq_of_length_le (collapsed.trans trimmed.length_le)
  have whole := trimmed.eq_of_length_le (stripped.length_le.trans collapsed)
  apply unmarked_of_strip
  rw [kept] at whole
  rw [whole]
  exact kept

end Length

/-- The tidy texts are the fixed points of cleaning, and every text without markers becomes one. -/
theorem clean_fixed_iff_tidy (text : Bytes) :
    (clean text = text ↔ Tidy text) ∧
    ((∀ marker ∈ markers, ¬marker <:+: text) → Tidy (clean text) ∧ clean (clean text) = clean text) := by
  refine ⟨⟨fun fixed => ?_,clean_eq_self text⟩,fun unmarked => ?_⟩
  · have tidy := tidy_clean text (unmarked_of_clean text fixed)
    rwa [fixed] at tidy
  · have tidy := tidy_clean text unmarked
    exact ⟨tidy,clean_eq_self _ tidy⟩

theorem clean_fixed_iff_tidy_lines :
    Tidy (utf8 "SELECT a FROM t") ∧ clean (utf8 "SELECT a FROM t") = utf8 "SELECT a FROM t" := by
  have read : clean (utf8 " SELECT a\n\tFROM t\n") = utf8 "SELECT a FROM t" := by decide +kernel
  have unmarked : ∀ marker ∈ markers, ¬marker <:+: utf8 " SELECT a\n\tFROM t\n" := by decide +kernel
  have both := (clean_fixed_iff_tidy (utf8 " SELECT a\n\tFROM t\n")).2 unmarked
  rwa [read] at both

end SqlTidy
