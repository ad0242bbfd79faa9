import SqlTidy.Proofs.Sql.Markers
import SqlTidy.Proofs.Sql.Validity
import SqlTidy.Proofs.Text.Runs

/-! Cleaning word by word. White space divides a text into words, no marker goes across a
word's end, and what cleaning gives are the words without their markers, with one space
between them; words that are left empty at either end do not show. -/
namespace SqlTidy
open Utf8

/-- What stands between the white space of a row. -/
def rowWords (row : List Glyph) : List (List Glyph) :=
  (row.splitOnP Glyph.isBlank).filter fun piece => !piece.isEmpty

/-- The words of a text, from one white space to the next. -/
def words (text : Bytes) : List Bytes := (rowWords (glyphs text)).map spell

section Rows

theorem rowWords_append (left : List Glyph) (g : Glyph) (right : List Glyph) (blank : g.isBlank = true) :
    rowWords (left ++ g :: right) = rowWords left ++ rowWords right := by
  rw [rowWords,List.splitOnP_append_cons left right blank,List.filter_append]
  rfl

theorem rowWords_solid (word : List Glyph) (some : word ≠ []) (solid : ∀ g ∈ word, g.isBlank = false) :
    rowWords word = [word] := by
  rw [rowWords,List.splitOnP_eq_singleton solid]
  simp [some]

theorem rowWords_blanks (blanks row : List Glyph) (blank : ∀ g ∈ blanks, g.isBlank = true) :
    rowWords (blanks ++ row) = rowWords row := by
  induction blanks with
  | nil => rfl
  | cons g blanks ih =>
    obtain ⟨first,others⟩ := List.forall_mem_cons.mp blank
    exact (rowWords_append [] g (blanks ++ row) first).trans (ih others)

theorem rowWords_between (left blanks right : List Glyph) (some : blanks ≠ [])
    (blank : ∀ g ∈ blanks, g.isBlank = true) :
    rowWords (left ++ (blanks ++ right)) = rowWords left ++ rowWords right := by
  obtain ⟨g,blanks,rfl⟩ := List.exists_cons_of_ne_nil some
  obtain ⟨first,others⟩ := List.forall_mem_cons.mp blank
  rw [List.cons_append,rowWords_append left g _ first,rowWords_blanks blanks right others]

theorem rowWords_append_blanks (row blanks : List Glyph) (blank : ∀ g ∈ blanks, g.isBlank = true) :
    rowWords (row ++ blanks) = rowWords row := by
  by_cases none : blanks = []
  · rw [none,List.append_nil]
  · have split := rowWords_between row blanks [] none blank
    rwa [List.append_nil,show rowWords [] = [] from rfl,List.append_nil] at split

/-- A row is a word, or a blank stands between a word and the rest. -/
theorem row_induction {motive : List Glyph → Prop} (word : ∀ word, (∀ g ∈ word, g.isBlank = false) → motive word)
    (blank : ∀ word g rest, (∀ h ∈ word, h.isBlank = false) → g.isBlank = true → motive rest →
      motive (word ++ g :: rest))
    (row : List Glyph) : motive row := by
  -- Glyphs are added to the word in front until a blank comes.
  have extended : ∀ front, (∀ g ∈ front, g.isBlank = false) → motive (front ++ row) := by
    induction row with
    | nil =>
      intro front solid
      rw [List.append_nil]
      exact word front solid
    | cons g row ih =>
      intro front solid
      cases white : g.isBlank with
      | true => exact blank front g row solid white (ih [] (by simp))
      | false =>
        have longer := ih (front ++ [g]) (List.forall_mem_append.mpr ⟨solid,by simpa using white⟩)
        rwa [List.append_assoc,List.singleton_append] at longer
  exact extended [] (by simp)

theorem mem_rowWords (row word : List Glyph) (member : word ∈ rowWords row) :
    word ≠ [] ∧ (∀ g ∈ word, g.isBlank = false) ∧ word <:+: row := by
  have alone (front : List Glyph) (solid : ∀ g ∈ front, g.isBlank = false) (found : word ∈ rowWords front) :
      word ≠ [] ∧ (∀ g ∈ word, g.isBlank = false) ∧ word = front := by
    by_cases none : front = []
    · simp [none,rowWords] at found
    · rw [rowWords_solid front none solid,List.mem_singleton] at found
      exact ⟨found ▸ none,found ▸ solid,found⟩
  induction row using row_induction with
  | word front solid =>
    obtain ⟨some,clear,rfl⟩ := alone front solid member
    exact ⟨some,clear,List.infix_refl _⟩
  | blank front g rest solid white ih =>
    rw [rowWords_append front g rest white] at member
    rcases List.mem_append.mp member with early | late
    · obtain ⟨some,clear,rfl⟩ := alone front solid early
      exact ⟨some,clear,(List.prefix_append _ _).isInfix⟩
    · obtain ⟨some,clear,inside⟩ := ih late
      exact ⟨some,clear,inside.trans ((List.suffix_cons g rest).trans (List.suffix_append front _)).isInfix⟩

end Rows

section Join

/-- The pieces with one space between them. -/
def spaced (pieces : List Bytes) : Bytes := Bytes.join [Ascii.space] pieces

@[simp] theorem spaced_nil : spaced [] = [] := rfl

@[simp] theorem spaced_singleton (piece : Bytes) : spaced [piece] = piece := List.append_nil piece

theorem spaced_cons (piece : Bytes) (pieces : List Bytes) (some : pieces ≠ []) :
    spaced (piece :: pieces) = piece ++ Ascii.space :: spaced pieces := by
  obtain ⟨next,pieces,rfl⟩ := List.exists_cons_of_ne_nil some
  simp [spaced,Bytes.join]

theorem spaced_append (left right : List Bytes) (first : left ≠ []) (last : right ≠ []) :
    spaced (left ++ right) = spaced left ++ Ascii.space :: spaced right := by
  induction left with
  | nil => exact absurd rfl first
  | cons piece left ih =>
    by_cases none : left = []
    · rw [none,List.singleton_append,spaced_cons piece right last,spaced_singleton]
    · rw [List.cons_append,spaced_cons piece _ (by simp [none]),ih none,spaced_cons piece left none,List.append_assoc,
        List.cons_append]

theorem spaced_empties (pieces : List Bytes) (empty : ∀ piece ∈ pieces, piece = []) :
    ∀ b ∈ spaced pieces, b = Ascii.space := by
  induction pieces with
  | nil => simp
  | cons piece pieces ih =>
    obtain ⟨rfl,rest⟩ := List.forall_mem_cons.mp empty
    by_cases none : pieces = []
    · simp [none]
    · rw [spaced_cons _ _ none,List.nil_append]
      exact List.forall_mem_cons.mpr ⟨rfl,ih rest⟩

theorem ascii_of_spaces (spaces : Bytes) (only : ∀ b ∈ spaces, b = Ascii.space) : ∀ b ∈ spaces, b < 0x80 :=
  fun b inside => only b inside ▸ by decide

theorem glyphs_spaces (spaces : Bytes) (only : ∀ b ∈ spaces, b = Ascii.space) :
    ∀ g ∈ spaces.map Glyph.ascii, g.isBlank = true := by
  intro g member
  obtain ⟨b,inside,rfl⟩ := List.mem_map.mp member
  rw [only b inside]
  decide

theorem trim_spaces (left text right : Bytes) (first : ∀ b ∈ left, b = Ascii.space)
    (last : ∀ b ∈ right, b = Ascii.space) : trim (left ++ (text ++ right)) = trim text := by
  have stop : glyphs (text ++ right) = glyphs text ++ glyphs right := by
    refine glyphs_append _ _ fun next inside => ?_
    rw [last next (List.mem_of_mem_head? inside)]
    decide
  rw [trim,glyphs_ascii_append left _ (ascii_of_spaces left first),stop,
    glyphs_of_ascii right (ascii_of_spaces right last),trimRow_blanks _ _ _ (glyphs_spaces left first) (glyphs_spaces right last),trim]

theorem trim_empties (pieces : List Bytes) (empty : ∀ piece ∈ pieces, piece = []) : trim (spaced pieces) = [] := by
  have cut := trim_spaces (spaced pieces) [] [] (spaced_empties pieces empty) (by simp)
  rwa [List.append_nil,List.append_nil] at cut

/-- Empty pieces at the ends do not show. -/
theorem trim_spaced (left core right : List Bytes) (first : ∀ piece ∈ left, piece = [])
    (last : ∀ piece ∈ right, piece = []) : trim (spaced (left ++ (core ++ right))) = trim (spaced core) := by
  have front (pieces : List Bytes) : trim (spaced (left ++ pieces)) = trim (spaced pieces) := by
    by_cases none : left = []
    · rw [none,List.nil_append]
    by_cases nothing : pieces = []
    · rw [nothing,List.append_nil,trim_empties left first,trim_empties [] (by simp)]
    · have before : ∀ b ∈ spaced left ++ [Ascii.space], b = Ascii.space :=
        List.forall_mem_append.mpr ⟨spaced_empties left first,by simp⟩
      have cut := trim_spaces _ (spaced pieces) [] before (by simp)
      rwa [List.append_nil,List.append_assoc,List.singleton_append,← spaced_append left pieces none nothing] at cut
  have back : trim (spaced (core ++ right)) = trim (spaced core) := by
    by_cases none : right = []
    · rw [none,List.append_nil]
    by_cases nothing : core = []
    · rw [nothing,List.nil_append,trim_empties right last,trim_empties [] (by simp)]
    · have behind : ∀ b ∈ Ascii.space :: spaced right, b = Ascii.space :=
        List.forall_mem_cons.mpr ⟨rfl,spaced_empties right last⟩
      have cut := trim_spaces [] (spaced core) _ (by simp) behind
      rwa [List.nil_append,← spaced_append core right nothing none] at cut
  rw [front,back]

end Join

section Clean

theorem strip_space (text : Bytes) : strip (Ascii.space :: text) = Ascii.space :: strip text := by
  have split := strip_append [] Ascii.space text (by decide)
  rwa [List.nil_append,strip_nil,List.nil_append] at split

/-- From the first word on, a row is left as its words without their markers; spaces may follow. -/
theorem strip_collapse_words (row : List Glyph) : ∃ spaces : Bytes, (∀ b ∈ spaces, b = Ascii.space) ∧
    strip (spell (collapse (row.dropWhile Glyph.isBlank))) =
      spaced ((rowWords row).map fun word => strip (spell word)) ++ spaces := by
  have begins (word rest : List Glyph) (some : word ≠ []) (solid : ∀ g ∈ word, g.isBlank = false) :
      (word ++ rest).dropWhile Glyph.isBlank = word ++ rest := by
    obtain ⟨g,word,rfl⟩ := List.exists_cons_of_ne_nil some
    exact List.dropWhile_cons_of_neg (by simp [(List.forall_mem_cons.mp solid).1])
  induction row using row_induction with
  | word word solid =>
    refine ⟨[],by simp,?_⟩
    by_cases none : word = []
    · rw [none]
      rfl
    · have kept := collapse_solid word [] solid
      have whole := begins word [] none solid
      simp only [List.append_nil] at kept whole
      rw [whole,kept,rowWords_solid word none solid]
      simp [collapse]
  | blank word g rest solid white ih =>
    obtain ⟨spaces,only,left⟩ := ih
    rw [rowWords_append word g rest white]
    by_cases none : word = []
    · refine ⟨spaces,only,?_⟩
      rw [none,List.nil_append,List.dropWhile_cons_of_pos white,left]
      rfl
    · have cut : strip (spell (collapse (word ++ g :: rest))) =
          strip (spell word) ++ Ascii.space :: strip (spell (collapse (rest.dropWhile Glyph.isBlank))) := by
        rw [collapse_solid word _ solid,collapse_blank g rest white,spell_append,spell_cons]
        exact strip_append _ _ _ (by decide)
      rw [begins word _ none solid,cut,left,rowWords_solid word none solid,List.singleton_append,List.map_cons]
      by_cases nothing : rowWords rest = []
      · refine ⟨Ascii.space :: spaces,List.forall_mem_cons.mpr ⟨rfl,only⟩,?_⟩
        simp [nothing]
      · refine ⟨spaces,only,?_⟩
        rw [spaced_cons _ _ (by simpa using nothing),List.append_assoc,List.cons_append]

theorem trim_squeeze (text : Bytes) :
    trim (squeeze text) = trim (strip (spell (collapse ((glyphs text).dropWhile Glyph.isBlank)))) := by
  rw [squeeze]
  cases glyphs text with
  | nil => rfl
  | cons g row =>
    cases white : g.isBlank with
    | false => rw [List.dropWhile_cons_of_neg (by simp [white])]
    | true =>
      rw [collapse_blank g row white,List.dropWhile_cons_of_pos white,spell_cons]
      have cut := trim_spaces [Ascii.space] (strip (spell (collapse (row.dropWhile Glyph.isBlank)))) []
        (by simp) (by simp)
      rw [List.append_nil,List.singleton_append,← strip_space] at cut
      exact cut

theorem clean_eq_words (text : Bytes) : clean text = trim (spaced ((words text).map strip)) := by
  obtain ⟨spaces,only,left⟩ := strip_collapse_words (glyphs text)
  have cut := trim_spaces [] (spaced ((rowWords (glyphs text)).map fun word => strip (spell word))) spaces
    (by simp) only
  rw [clean_eq,trim_squeeze,left,words,List.map_map]
  exact cut

end Clean

section Wrapped

variable (front gap behind back : Run isBlank) (first last : Bytes) (opens : first ∈ markers) (closes : last ∈ markers)
  (apart : gap.chars ≠ []) (apart' : behind.chars ≠ [])
include opens closes apart apart'

theorem words_wrapped (text : Bytes) :
    words (front.text ++ first ++ gap.text ++ text ++ behind.text ++ last ++ back.text) =
      [first] ++ (words text ++ [last]) := by
  have marker : ∀ marker ∈ markers, marker ≠ [] ∧ ∀ b ∈ marker, b < 0x80 ∧ (Glyph.ascii b).isBlank = false := by
    decide +kernel
  have small (m : Bytes) (listed : m ∈ markers) : ∀ b ∈ m, b < 0x80 := fun b member => ((marker m listed).2 b member).1
  have alone (m : Bytes) (listed : m ∈ markers) : rowWords (glyphs m) = [glyphs m] := by
    refine rowWords_solid _ (glyphs_ne_nil m (marker m listed).1) fun g member => ?_
    rw [glyphs_of_ascii m (small m listed)] at member
    obtain ⟨b,inside,rfl⟩ := List.mem_map.mp member
    exact ((marker m listed).2 b inside).2
  have read : glyphs (front.text ++ first ++ gap.text ++ text ++ behind.text ++ last ++ back.text) =
      front.row ++ (glyphs first ++ (gap.row ++ (glyphs text ++ (behind.row ++ (glyphs last ++ back.row))))) := by
    simp only [List.append_assoc]
    rw [front.glyphs_text_append,glyphs_ascii_append first _ (small first opens),
      ← glyphs_of_ascii first (small first opens),gap.glyphs_text_append,behind.glyphs_between text _ (.inl apart'),back.glyphs_append_text]
  rw [words,read,rowWords_blanks _ _ front.is_of_mem_row,
    rowWords_between _ _ _ (by simpa [Run.row] using apart) gap.is_of_mem_row,
    rowWords_between _ _ _ (by simpa [Run.row] using apart') behind.is_of_mem_row,
    rowWords_append_blanks _ _ back.is_of_mem_row,alone first opens,alone last closes]
  simp [words]

/-- Markers before and behind a text, apart from it, do not show. -/
theorem clean_wrapped (text : Bytes) :
    clean (front.text ++ first ++ gap.text ++ text ++ behind.text ++ last ++ back.text) = clean text := by
  have gone : ∀ marker ∈ markers, strip marker = [] := by decide +kernel
  rw [clean_eq_words,words_wrapped front gap behind back first last opens closes apart apart' text,List.map_append,
    List.map_append,trim_spaced,← clean_eq_words]
  · simpa using gone first opens
  · simpa using gone last closes

end Wrapped

section Doubled

theorem glyphs_spaced (piece : Bytes) (pieces : List Bytes) : glyphs (spaced (piece :: pieces)) =
    glyphs piece ++ pieces.flatMap fun next => Glyph.ascii Ascii.space :: glyphs next := by
  induction pieces generalizing piece with
  | nil => simp
  | cons next pieces ih =>
    rw [spaced_cons _ _ (by simp),glyphs_append_ascii _ _ _ (by decide),ih,List.flatMap_cons,List.cons_append]

theorem mem_glyphs_spaced (pieces : List Bytes) (g : Glyph) (member : g ∈ glyphs (spaced pieces)) :
    g = Glyph.ascii Ascii.space ∨ ∃ piece ∈ pieces, g ∈ glyphs piece := by
  cases pieces with
  | nil => simp at member
  | cons piece pieces =>
    rw [glyphs_spaced] at member
    rcases List.mem_append.mp member with early | late
    · exact .inr ⟨piece,List.mem_cons_self,early⟩
    · obtain ⟨next,among,inside⟩ := List.mem_flatMap.mp late
      exact (List.mem_cons.mp inside).imp_right fun read => ⟨next,List.mem_cons_of_mem piece among,read⟩

theorem trim_eq_self (text : Bytes) (begins : ∀ g ∈ (glyphs text).head?, g.isBlank = false)
    (ends : ∀ g ∈ (glyphs text).getLast?, g.isBlank = false) : trim text = text := by
  have front : (glyphs text).dropWhile Glyph.isBlank = glyphs text := by
    cases row : glyphs text with
    | nil => rfl
    | cons g row' => exact List.dropWhile_cons_of_neg (by simp [begins g (by simp [row])])
  have back : (glyphs text).rdropWhile Glyph.isBlank = glyphs text := by
    refine List.rdropWhile_eq_self_iff.mpr fun some => ?_
    simp [ends _ (List.getLast?_eq_some_getLast some)]
  rw [trim,trimRow,front]
  exact (congrArg spell back).trans (spell_glyphs text)

theorem trim_trim (text : Bytes) : trim (trim text) = trim text := by
  apply trim_eq_self
  · rw [glyphs_trim]
    exact trimmed_begins Glyph.isBlank (glyphs text)
  · rw [glyphs_trim]
    exact trimmed_ends Glyph.isBlank (glyphs text)

variable (pieces : List Bytes) (solid : ∀ piece ∈ pieces, ∀ g ∈ glyphs piece, g.isBlank = false)
include solid

theorem trim_spaced_self (first : ∀ piece ∈ pieces.head?, piece ≠ []) (last : ∀ piece ∈ pieces.getLast?, piece ≠ []) :
    trim (spaced pieces) = spaced pieces := by
  apply trim_eq_self
  · intro g head
    cases pieces with
    | nil => simp at head
    | cons piece pieces =>
      rw [glyphs_spaced,List.head?_append_of_ne_nil _ (glyphs_ne_nil piece (first piece rfl))] at head
      exact solid piece List.mem_cons_self g (List.mem_of_mem_head? head)
  · intro g tail
    rcases List.eq_nil_or_concat pieces with rfl | ⟨pieces,piece,rfl⟩
    · simp at tail
    · rw [List.concat_eq_append] at tail solid last
      have ends : ∃ more, glyphs (spaced (pieces ++ [piece])) = more ++ glyphs piece := by
        cases pieces with
        | nil => exact ⟨[],by simp⟩
        | cons front pieces =>
          rw [List.cons_append,glyphs_spaced,List.flatMap_append,List.flatMap_singleton,← List.append_assoc]
          exact ⟨_,List.append_cons ..⟩
      obtain ⟨more,split⟩ := ends
      rw [split,List.getLast?_append_of_ne_nil _ (glyphs_ne_nil piece (last piece (by simp)))] at tail
      exact solid piece (by simp) g (List.mem_of_getLast? tail)

/-- Between pieces that are not empty there is one space only. -/
theorem spaced_apart (some : ∀ piece ∈ pieces, piece ≠ []) (g h : Glyph) (white : g.isBlank = true)
    (next : h.isBlank = true) : ¬[g,h] <:+: glyphs (spaced pieces) := by
  induction pieces with
  | nil => simp
  | cons piece pieces ih =>
    obtain ⟨clear,rest⟩ := List.forall_mem_cons.mp solid
    have outside : g ∉ glyphs piece := fun member => by simp [clear g member] at white
    intro inside
    cases pieces with
    | nil =>
      rw [spaced_singleton] at inside
      exact outside (inside.subset List.mem_cons_self)
    | cons second pieces =>
      have later : ¬[g,h] <+: Glyph.ascii Ascii.space :: glyphs (spaced (second :: pieces)) := by
        intro start
        obtain ⟨k,row,read⟩ := List.exists_cons_of_ne_nil (glyphs_ne_nil second (some second (by simp)))
        rw [glyphs_spaced,read,List.cons_append,List.cons_prefix_cons,List.cons_prefix_cons] at start
        have clear := rest second (by simp) k (by simp [read])
        rw [← start.2.1,next] at clear
        exact absurd clear (by decide)
      rw [spaced_cons _ _ (by simp),glyphs_append_ascii _ _ _ (by decide),List.infix_append_iff,
        List.infix_cons_iff] at inside
      rcases inside with early | (start | late) | ⟨left,right,split,ends,begins⟩
      · exact outside (early.subset List.mem_cons_self)
      · exact later start
      · exact ih rest (List.forall_mem_cons.mp some).2 late
      · cases left with
        | nil => exact later (split ▸ begins)
        | cons k left =>
          obtain ⟨rfl,_⟩ := List.cons.inj split
          exact outside (ends.subset List.mem_cons_self)

omit solid in
/-- Without the empty pieces at its ends, a list begins and ends with a piece that shows. -/
theorem exists_core : ∃ left core right, pieces = left ++ (core ++ right) ∧
    (∀ piece ∈ left, piece = []) ∧ (∀ piece ∈ right, piece = []) ∧
    (∀ piece ∈ core.head?, piece ≠ []) ∧ (∀ piece ∈ core.getLast?, piece ≠ []) ∧
    ((∃ piece ∈ pieces, piece ≠ []) → core ≠ []) := by
  have front := List.takeWhile_append_dropWhile (p := List.isEmpty) (l := pieces)
  have back := List.rdropWhile_append_rtakeWhile (p := List.isEmpty) (l := pieces.dropWhile List.isEmpty)
  refine ⟨pieces.takeWhile List.isEmpty,(pieces.dropWhile List.isEmpty).rdropWhile List.isEmpty,
    (pieces.dropWhile List.isEmpty).rtakeWhile List.isEmpty,by rw [back,front],?_,?_,?_,?_,?_⟩
  · exact fun piece member => List.isEmpty_iff.mp (List.mem_takeWhile_imp member)
  · exact fun piece member => List.isEmpty_iff.mp (List.mem_rtakeWhile_imp member)
  · exact fun piece head => List.isEmpty_eq_false_iff.mp (trimmed_begins _ _ piece head)
  · exact fun piece last => List.isEmpty_eq_false_iff.mp (trimmed_ends _ _ piece last)
  · rintro ⟨piece,member,shown⟩ nothing
    rw [← front] at member
    rcases List.mem_append.mp member with early | late
    · exact shown (List.isEmpty_iff.mp (List.mem_takeWhile_imp early))
    · exact shown (List.isEmpty_iff.mp (List.rdropWhile_eq_nil_iff.mp nothing piece late))

/-- Two spaces stand together where an empty piece stands between two that show. -/
theorem doubled_iff : [Ascii.space,Ascii.space] <:+: trim (spaced pieces) ↔
    ∃ left right, pieces = left ++ [] :: right ∧ (∃ piece ∈ left, piece ≠ []) ∧ ∃ piece ∈ right, piece ≠ [] := by
  constructor
  · -- Trimming takes the empty pieces at the ends; without others there would be single spaces only.
    intro inside
    obtain ⟨before,core,after,rfl,first,last,begins,ends,_⟩ := exists_core pieces
    have clear : ∀ piece ∈ core, ∀ g ∈ glyphs piece, g.isBlank = false :=
      fun piece member => solid piece (by simp [member])
    rw [trim_spaced before core after first last,trim_spaced_self core clear begins ends] at inside
    have empty : [] ∈ core := by
      by_contra absent
      have white : isBlank ' ' = true := by decide
      have blanks := ((Run.single ' ' white).append (Run.single ' ' white)).text_infix_iff (spaced core)
        (by simp [Run.append,Run.single])
      have some : ∀ piece ∈ core, piece ≠ [] := fun piece member none => absent (none ▸ member)
      exact spaced_apart core clear some _ _ (by decide) (by decide) (blanks.mp inside)
    obtain ⟨left,right,rfl⟩ := List.append_of_mem empty
    refine ⟨before ++ left,right ++ after,by simp,?_,?_⟩
    · cases left with
      | nil => exact absurd rfl (begins [] rfl)
      | cons piece left => exact ⟨piece,by simp,begins piece rfl⟩
    · rcases List.eq_nil_or_concat right with rfl | ⟨right,piece,rfl⟩
      · exact absurd rfl (ends [] (by simp))
      · rw [List.concat_eq_append,← List.cons_append,← List.append_assoc] at ends
        exact ⟨piece,by simp,ends piece List.getLast?_concat⟩
  · rintro ⟨left,right,rfl,early,late⟩
    obtain ⟨before,front,gap,rfl,first,_,begins,_,some⟩ := exists_core left
    obtain ⟨gap',back,after,rfl,_,last,_,ends,some'⟩ := exists_core right
    have whole : before ++ (front ++ gap) ++ [] :: (gap' ++ (back ++ after)) =
        before ++ (front ++ gap ++ [] :: (gap' ++ back) ++ after) := by simp
    rw [whole] at solid ⊢
    rw [trim_spaced before _ after first last,trim_spaced_self]
    · rw [spaced_append _ _ (by simp [some early]) (by simp),spaced_cons _ _ (by simp [some' late])]
      exact ⟨spaced (front ++ gap),spaced (gap' ++ back),by simp⟩
    · exact fun piece member => solid piece (by simp only [List.mem_append] at member ⊢; tauto)
    · rw [List.append_assoc,List.head?_append_of_ne_nil _ (some early)]
      exact begins
    · rw [← List.cons_append,← List.append_assoc,List.getLast?_append_of_ne_nil _ (some' late)]
      exact ends

end Doubled

section Words

theorem mem_words (text word : Bytes) (member : word ∈ words text) :
    word ≠ [] ∧ (∀ g ∈ glyphs word, g.isBlank = false) ∧ glyphs word <:+: glyphs text := by
  obtain ⟨row,found,rfl⟩ := List.mem_map.mp member
  obtain ⟨some,solid,inside⟩ := mem_rowWords (glyphs text) row found
  have read : glyphs (spell row) = row := by
    obtain ⟨left,right,whole⟩ := inside
    exact glyphs_spell_piece left row right text whole.symm
  refine ⟨fun none => some ?_,read.symm ▸ solid,read.symm ▸ inside⟩
  rw [← read,none,glyphs_nil]

variable (text : Bytes)

theorem words_some : ∀ word ∈ words text, word ≠ [] := fun word member => (mem_words text word member).1

theorem words_solid : ∀ word ∈ words text, ∀ g ∈ glyphs word, g.isBlank = false :=
  fun word member => (mem_words text word member).2.1

theorem words_within : ∀ word ∈ words text, glyphs word <:+: glyphs text :=
  fun word member => (mem_words text word member).2.2

/-- No white space comes to light when a word of a valid text loses its markers. -/
theorem strip_solid (valid : isUtf8 text = true) :
    ∀ piece ∈ (words text).map strip, ∀ g ∈ glyphs piece, g.isBlank = false := by
  intro piece member g inside
  obtain ⟨word,found,rfl⟩ := List.mem_map.mp member
  have whole := isUtf8_of_subset text word valid (words_within text word found).subset
  exact words_solid text word found g ((glyphs_strip word whole).subset inside)

end Words

/-- Cleaning a text is cleaning its words. Two spaces stand together in the result where a word
was nothing but markers, and words that show came before and behind it. -/
theorem clean_word_by_word (text : Bytes) :
    clean text = trim (spaced ((words text).map strip)) ∧
    (∀ (front gap behind back : Run isBlank) (first last : Bytes), first ∈ markers → last ∈ markers →
      gap.chars ≠ [] → behind.chars ≠ [] →
      clean (front.text ++ first ++ gap.text ++ text ++ behind.text ++ last ++ back.text) = clean text) ∧
    (isUtf8 text = true → (utf8 "  " <:+: clean text ↔ ∃ left word right, words text = left ++ word :: right ∧
      strip word = [] ∧ (∃ shown ∈ left, strip shown ≠ []) ∧ ∃ shown ∈ right, strip shown ≠ [])) := by
  refine ⟨clean_eq_words text,?_,fun valid => ?_⟩
  · intro front gap behind back first last opens closes apart apart'
    exact clean_wrapped front gap behind back first last opens closes apart apart' text
  · have spaces : utf8 "  " = [Ascii.space,Ascii.space] := by decide +kernel
    rw [clean_eq_words,spaces,doubled_iff _ (strip_solid text valid)]
    constructor
    · rintro ⟨left,right,whole,before,after⟩
      obtain ⟨front,others,split,rfl,rest⟩ := List.map_eq_append_iff.mp whole
      obtain ⟨word,back,rfl,gone,rfl⟩ := List.map_eq_cons_iff.mp rest
      exact ⟨front,word,back,split,gone,by simpa using before,by simpa using after⟩
    · rintro ⟨left,word,right,split,gone,before,after⟩
      exact ⟨left.map strip,right.map strip,by rw [split,List.map_append,List.map_cons,gone],by simpa using before,
        by simpa using after⟩

theorem clean_word_by_word_emptied :
    clean (utf8 "``` SELECT ; 1 ```") = clean (utf8 "SELECT ; 1") ∧ utf8 "  " <:+: clean (utf8 "SELECT ; 1") := by
  obtain ⟨_,wrapped,doubled⟩ := clean_word_by_word (utf8 "SELECT ; 1")
  have fence : utf8 "```" ∈ markers := by decide
  have white : isBlank ' ' = true := by decide
  have plain := wrapped ⟨[],by simp⟩ (.single ' ' white) (.single ' ' white) ⟨[],by simp⟩ _ _ fence fence
    (by simp [Run.single]) (by simp [Run.single])
  refine ⟨plain,(doubled (by decide +kernel)).mpr ?_⟩
  exact ⟨[utf8 "SELECT"],utf8 ";",[utf8 "1"],by decide +kernel,by decide +kernel,
    ⟨_,List.mem_cons_self,by decide +kernel⟩,_,List.mem_cons_self,by decide +kernel⟩

end SqlTidy
