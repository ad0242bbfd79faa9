import Mathlib.Data.List.SplitBy
import SqlTidy.Proofs.Sql.Markers
import SqlTidy.Proofs.Text.Validity

/-! What cleaning leaves out. Of a valid text whole code points are left, in their order: a pass
takes out characters of its own marker, and trimming takes out white space. Collapsing
changes white space alone, so that all which is neither white space nor in a marker stays. -/
namespace SqlTidy
open Utf8

/-- Some glyphs of a class are left out of a row, and all others stay in their order. -/
structure Thinned (test : Glyph → Bool) (whole left : List Glyph) : Prop where
  sublist : left.Sublist whole
  kept : (left.filter fun g => !test g) = whole.filter fun g => !test g

namespace Thinned

variable {test : Glyph → Bool} {whole middle left : List Glyph}

theorem refl (row : List Glyph) : Thinned test row row := ⟨List.Sublist.refl row,rfl⟩

theorem trans (first : Thinned test whole middle) (second : Thinned test middle left) : Thinned test whole left :=
  ⟨second.sublist.trans first.sublist,second.kept.trans first.kept⟩

theorem keep (g : Glyph) (rest : Thinned test whole left) : Thinned test (g :: whole) (g :: left) :=
  ⟨rest.sublist.cons_cons g,by simp only [List.filter_cons,rest.kept]⟩

theorem drop (g : Glyph) (passes : test g = true) (rest : Thinned test whole left) : Thinned test (g :: whole) left :=
  ⟨rest.sublist.cons g,by simp [rest.kept,passes]⟩

theorem between (before row after : List Glyph) (first : ∀ g ∈ before, test g = true)
    (last : ∀ g ∈ after, test g = true) : Thinned test (before ++ (row ++ after)) row := by
  have none (list : List Glyph) (all : ∀ g ∈ list, test g = true) : (list.filter fun g => !test g) = [] :=
    List.filter_eq_nil_iff.mpr fun g member => by simp [all g member]
  refine ⟨(List.sublist_append_left row after).trans (List.sublist_append_right before _),?_⟩
  rw [List.filter_append,List.filter_append,none before first,none after last,List.nil_append,List.append_nil]

end Thinned

section Erase

theorem erase_append_large (marker : Bytes) (some : marker ≠ []) (small : ∀ b ∈ marker, b < 0x80) (bytes rest : Bytes)
    (large : ∀ b ∈ bytes, 0x80 ≤ b.toNat) : erase marker (bytes ++ rest) = bytes ++ erase marker rest := by
  induction bytes with
  | nil => rfl
  | cons b bytes ih =>
    obtain ⟨first,others⟩ := List.forall_mem_cons.mp large
    have outside : b ∉ marker := by
      intro member
      have bound := UInt8.lt_iff_toNat_lt.mp (small b member)
      change b.toNat < 128 at bound
      omega
    have kept := eraseFrom_append marker some b outside (bytes ++ rest) 0 [] (Nat.zero_le _)
    rw [List.nil_append] at kept
    rw [List.cons_append,erase,kept,ih others]
    simp [eraseFrom]

variable (test : Glyph → Bool)

theorem glyphs_eraseFrom (marker : Bytes) (some : marker ≠ [])
    (covered : ∀ b ∈ marker, b < 0x80 ∧ test (Glyph.ascii b) = true) (skip : Nat) (text : Bytes) (valid : isUtf8 text = true)
    (dropped : ∀ b ∈ text.take skip, b < 0x80 ∧ test (Glyph.ascii b) = true) :
    Thinned test (glyphs text) (glyphs (eraseFrom marker skip text)) := by
  induction text, valid using valid_induction generalizing skip with
  | nil => cases skip <;> exact .refl []
  | encoded bytes rest x encodes _ ih =>
    rcases encodes.ascii_or_large with ⟨b,ascii,rfl,_⟩ | ⟨large,_⟩
    · rw [List.singleton_append,glyphs_ascii b rest ascii]
      cases skip with
      | succ skip =>
        obtain ⟨first,others⟩ := List.forall_mem_cons.mp dropped
        exact .drop _ first.2 (ih skip others)
      | zero =>
        rw [eraseFrom]
        split
        next found =>
          obtain ⟨later,split⟩ := List.isPrefixOf_iff_prefix.mp found
          obtain ⟨c,marker,rfl⟩ := List.exists_cons_of_ne_nil some
          obtain ⟨rfl,rfl⟩ := List.cons.inj split
          obtain ⟨first,others⟩ := List.forall_mem_cons.mp covered
          exact .drop _ first.2 (ih _ (by simpa using others))
        next =>
          rw [glyphs_ascii b _ ascii]
          exact .keep _ (ih 0 (by simp))
    · -- The bytes of a longer code point stand in no marker, so that all of them stay.
      cases skip with
      | succ skip =>
        obtain ⟨b,bytes,rfl⟩ := List.exists_cons_of_ne_nil encodes.ne_nil
        have least := large b List.mem_cons_self
        have most := UInt8.lt_iff_toNat_lt.mp (dropped b List.mem_cons_self).1
        change b.toNat < 128 at most
        omega
      | zero =>
        have kept := erase_append_large marker some (fun b member => (covered b member).1) bytes rest large
        rw [erase] at kept
        rw [kept,glyphs_encoded _ _ _ encodes,glyphs_encoded _ _ _ encodes]
        exact .keep _ (ih 0 (by simp))

theorem glyphs_foldl_erase (list : List Bytes)
    (covered : ∀ marker ∈ list, marker ≠ [] ∧ ∀ b ∈ marker, b < 0x80 ∧ test (Glyph.ascii b) = true)
    (text : Bytes) (valid : isUtf8 text = true) :
    Thinned test (glyphs text) (glyphs (list.foldl (fun left marker => erase marker left) text)) := by
  induction list generalizing text with
  | nil => exact .refl _
  | cons marker list ih =>
    obtain ⟨first,rest⟩ := List.forall_mem_cons.mp covered
    have erased := glyphs_eraseFrom test marker first.1 first.2 0 text valid (by simp)
    exact erased.trans (ih rest _ (isUtf8_of_subset text _ valid erased.sublist.subset))

theorem glyphs_strip (text : Bytes) (valid : isUtf8 text = true) : (glyphs (strip text)).Sublist (glyphs text) := by
  have covered : ∀ marker ∈ markers, marker ≠ [] ∧ ∀ b ∈ marker, b < 0x80 ∧ true = true := by decide +kernel
  exact (glyphs_foldl_erase (fun _ => true) markers covered text valid).sublist

end Erase

section Blanks

/-- A row with one space for each run of white space. -/
def withSingleSpaces (row : List Glyph) : List Glyph :=
  (row.splitBy fun g h => g.isBlank == h.isBlank).flatMap fun run =>
    if run.all Glyph.isBlank then [Glyph.ofChar ' '] else run

theorem collapse_blanks (blanks row : List Glyph) (some : blanks ≠ []) (blank : ∀ g ∈ blanks, g.isBlank = true)
    (solid : ∀ g ∈ row.head?, g.isBlank = false) : collapse (blanks ++ row) = Glyph.ofChar ' ' :: collapse row := by
  obtain ⟨g,blanks,rfl⟩ := List.exists_cons_of_ne_nil some
  obtain ⟨first,others⟩ := List.forall_mem_cons.mp blank
  rw [List.cons_append,collapse_blank g _ first,dropWhile_run Glyph.isBlank blanks row others solid]

theorem blank_or_solid (run : List Glyph) (chain : run.IsChain fun g h => (g.isBlank == h.isBlank) = true) :
    (∀ g ∈ run, g.isBlank = true) ∨ ∀ g ∈ run, g.isBlank = false := by
  induction run with
  | nil => simp
  | cons g run ih =>
    cases run with
    | nil => cases white : g.isBlank <;> simp [white]
    | cons h run =>
      obtain ⟨same,later⟩ := List.isChain_cons_cons.mp chain
      have alike : g.isBlank = h.isBlank := beq_iff_eq.mp same
      refine (ih later).imp ?_ ?_ <;>
        exact fun all => List.forall_mem_cons.mpr ⟨alike.trans (all h List.mem_cons_self),all⟩

theorem collapse_eq_withSingleSpaces (row : List Glyph) : collapse row = withSingleSpaces row := by
  obtain ⟨whole,some,chains,apart⟩ := List.splitBy_eq_iff.mp
    (rfl : (row.splitBy fun g h => g.isBlank == h.isBlank) = _)
  unfold withSingleSpaces
  generalize (row.splitBy fun g h => g.isBlank == h.isBlank) = runs at whole some chains apart ⊢
  subst whole
  induction runs with
  | nil => rfl
  | cons run runs ih =>
    obtain ⟨chain,otherChains⟩ := List.forall_mem_cons.mp chains
    obtain ⟨next,otherApart⟩ := List.isChain_cons.mp apart
    have nonempty : run ≠ [] := fun none => some (none ▸ List.mem_cons_self)
    have later := ih (fun member => some (List.mem_cons_of_mem run member)) otherChains otherApart
    rw [List.flatten_cons,List.flatMap_cons,← later]
    rcases blank_or_solid run chain with blank | solid
    · have head : ∀ g ∈ runs.flatten.head?, g.isBlank = false := by
        intro g first
        cases runs with
        | nil => simp at first
        | cons other runs =>
          obtain ⟨_,some,differ⟩ := next other rfl
          rw [blank _ (List.getLast_mem nonempty)] at differ
          rw [List.flatten_cons,List.head?_append_of_ne_nil _ some,List.head?_eq_some_head some] at first
          rw [← Option.some.inj first]
          simpa using differ
      rw [if_pos (List.all_eq_true.mpr blank),collapse_blanks run _ nonempty blank head]
      rfl
    · have visible : ¬run.all Glyph.isBlank = true := by
        intro blank
        obtain ⟨g,member⟩ := List.exists_mem_of_ne_nil run nonempty
        exact absurd ((List.all_eq_true.mp blank g member).symm.trans (solid g member)) (by decide)
      rw [if_neg visible,collapse_solid run _ solid]

variable (test : Glyph → Bool) (white : ∀ g : Glyph, g.isBlank = true → test g = true)
include white

theorem filter_collapse (row : List Glyph) :
    ((collapse row).filter fun g => !test g) = row.filter fun g => !test g := by
  have space : test (Glyph.ofChar ' ') = true := white _ (by decide)
  induction row with
  | nil => rfl
  | cons g row ih =>
    rw [collapse_cons]
    split
    next blank => split <;> simp [ih,space,white g blank]
    next => rw [List.filter_cons,List.filter_cons,ih]

theorem trimRow_thinned (row : List Glyph) : Thinned test row (trimRow row) := by
  have front := List.takeWhile_append_dropWhile (p := Glyph.isBlank) (l := row)
  have back := List.rdropWhile_append_rtakeWhile (p := Glyph.isBlank) (l := row.dropWhile Glyph.isBlank)
  have thinned : Thinned test (row.takeWhile Glyph.isBlank ++
      ((row.dropWhile Glyph.isBlank).rdropWhile Glyph.isBlank ++ (row.dropWhile Glyph.isBlank).rtakeWhile Glyph.isBlank))
      (trimRow row) :=
    .between _ _ _ (fun g member => white g (List.mem_takeWhile_imp member))
      fun g member => white g (List.mem_rtakeWhile_imp member)
  rwa [back,front] at thinned

end Blanks

section Clean

variable (text : Bytes) (valid : isUtf8 text = true)
include valid

theorem collapse_encodes : ∀ g ∈ collapse (glyphs text), ∃ x, Encodes g.bytes x ∧ g.char? = some x := by
  intro g member
  rcases mem_collapse _ g member with rfl | ⟨read,_⟩
  · exact ⟨' ',.single Ascii.space ' ' (by decide),rfl⟩
  · exact encodes_of_valid text valid g read

theorem glyphs_spell_collapse : glyphs (spell (collapse (glyphs text))) = collapse (glyphs text) :=
  glyphs_spell _ (collapse_encodes text valid)

theorem isUtf8_spell_collapse : isUtf8 (spell (collapse (glyphs text))) = true := by
  refine isUtf8_spell _ fun g member => ?_
  obtain ⟨x,encodes,_⟩ := collapse_encodes text valid g member
  exact ⟨x,encodes⟩

section Passes

variable (test : Glyph → Bool) (white : ∀ g : Glyph, g.isBlank = true → test g = true) (list : List Bytes)
  (covered : ∀ marker ∈ list, marker ≠ [] ∧ ∀ b ∈ marker, b < 0x80 ∧ test (Glyph.ascii b) = true)
  (stripped : strip (spell (collapse (glyphs text))) =
    list.foldl (fun left marker => erase marker left) (spell (collapse (glyphs text))))
include white covered stripped

/-- Of the passes only those in `list` need to have an effect. -/
theorem clean_thinned : Thinned test (collapse (glyphs text)) (glyphs (clean text)) := by
  have erased := glyphs_foldl_erase test list covered _ (isUtf8_spell_collapse text valid)
  rw [← stripped,glyphs_spell_collapse text valid] at erased
  rw [clean_eq,glyphs_trim]
  exact erased.trans (trimRow_thinned test white _)

theorem filter_clean : ((glyphs (clean text)).filter fun g => !test g) = (glyphs text).filter fun g => !test g :=
  (clean_thinned text valid test white list covered stripped).kept.trans (filter_collapse test white _)

end Passes

theorem clean_sublist : (glyphs (clean text)).Sublist (collapse (glyphs text)) := by
  have covered : ∀ marker ∈ markers, marker ≠ [] ∧ ∀ b ∈ marker, b < 0x80 ∧ true = true := by decide +kernel
  exact (clean_thinned text valid (fun _ => true) (fun _ _ => rfl) markers covered rfl).sublist

end Clean

/-- Without a bare fence there is none with a language either. -/
theorem strip_unfenced (text : Bytes) (unfenced : ¬utf8 "```" <:+: text) :
    strip text = (markers.drop 2).foldl (fun left marker => erase marker left) text := by
  have bare : utf8 "```" <:+: utf8 "```sql" ∧ utf8 "```" <:+: utf8 "```json" := by decide +kernel
  have first := erase_eq_self (utf8 "```sql") text fun inside => unfenced (bare.1.trans inside)
  have second := erase_eq_self (utf8 "```json") text fun inside => unfenced (bare.2.trans inside)
  have order : markers = utf8 "```sql" :: utf8 "```json" :: markers.drop 2 := rfl
  rw [strip,order,List.foldl_cons,List.foldl_cons,first,second]
  rfl

/-- The code points of a text that are neither white space nor among the given characters. -/
def visible (besides : String) (text : Bytes) : List Glyph :=
  (glyphs text).filter fun g => !g.is fun c => isBlank c || besides.toList.contains c

/-- Cleaning takes out white space and characters of markers, and what is left keeps its order.
Where no fence was found, no letter is taken out. -/
theorem clean_loses_only_artifacts (text : Bytes) (valid : isUtf8 text = true) :
    (glyphs (clean text)).Sublist (withSingleSpaces (glyphs text)) ∧
    visible "`\"';sqljon" (clean text) = visible "`\"';sqljon" text ∧
    (¬utf8 "```" <:+: text → visible "`\"';" (clean text) = visible "`\"';" text) := by
  have white (besides : List Char) (g : Glyph) (blank : g.isBlank = true) :
      (g.is fun c => isBlank c || besides.contains c) = true := by
    obtain ⟨c,read,passes⟩ := (Option.any_eq_true ..).mp blank
    simp [Glyph.is,read,passes]
  refine ⟨collapse_eq_withSingleSpaces _ ▸ clean_sublist text valid,?_,fun unfenced => ?_⟩
  · exact filter_clean text valid _ (white _) markers (by decide +kernel) rfl
  · refine filter_clean text valid _ (white _) (markers.drop 2) (by decide +kernel) (strip_unfenced _ fun inside => ?_)
    have part := within_of_collapse (glyphs text) (utf8 "```") (by decide +kernel) inside
    rw [spell_glyphs] at part
    exact unfenced part

/-- Three backticks come into being when the apostrophes between them go, and go as well. -/
theorem clean_loses_only_artifacts_torn :
    let text := utf8 "SELECT\u00a0'''a` '''; `'''`` json\n"
    isUtf8 text = true ∧ ¬utf8 "```" <:+: text ∧ clean text = utf8 "SELECT a`   json" ∧
      visible "`\"';" (clean text) = visible "`\"';" text := by
  intro text
  have valid : isUtf8 text = true := by decide +kernel
  have unfenced : ¬utf8 "```" <:+: text := by decide +kernel
  exact ⟨valid,unfenced,by decide +kernel,(clean_loses_only_artifacts text valid).2.2 unfenced⟩

end SqlTidy
