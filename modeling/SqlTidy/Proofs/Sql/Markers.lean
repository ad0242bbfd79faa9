import SqlTidy.Proofs.Sql.Cleaning

/-! Markers after cleaning. A pass removes its own marker, but what it removes may have stood
between the parts of another one. No semicolon is left, since semicolons go last; any
other marker that is left was torn apart in the text, by a marker removed after it. -/
namespace SqlTidy
open Utf8

section Erase

theorem eraseFrom_tail (marker : Bytes) (skip : Nat) (text front back : Bytes) (some : back ≠ [])
    (left : eraseFrom marker skip text = front ++ back) :
    ∃ before rest, text = before ++ rest ∧ ¬marker <+: rest ∧ erase marker rest = back := by
  induction text generalizing skip front with
  | nil =>
    have nothing : front ++ back = [] := by rw [← left]; cases skip <;> rfl
    exact absurd (List.append_eq_nil_iff.mp nothing).2 some
  | cons b text ih =>
    -- A byte that is dropped, or stands in front, goes before the rest.
    have later (skip : Nat) (front : Bytes) (left : eraseFrom marker skip text = front ++ back) :
        ∃ before rest, b :: text = before ++ rest ∧ ¬marker <+: rest ∧ erase marker rest = back := by
      obtain ⟨before,rest,rfl,erased⟩ := ih skip front left
      exact ⟨b :: before,rest,rfl,erased⟩
    cases skip with
    | succ skip => exact later skip front left
    | zero =>
      have whole := left
      rw [eraseFrom] at left
      split at left
      next => exact later _ _ left
      next other =>
        cases front with
        | nil => exact ⟨[],b :: text,rfl,fun start => other (List.isPrefixOf_iff_prefix.mpr start),whole⟩
        | cons first front => exact later 0 front (List.cons.inj left).2

theorem eraseFrom_head (marker : Bytes) (skip : Nat) (text front back : Bytes) (some : front ≠ [])
    (left : eraseFrom marker skip text = front ++ back) :
    ∃ piece rest, text = piece ++ rest ∧ eraseFrom marker skip piece = front := by
  induction text generalizing skip front with
  | nil =>
    have nothing : front ++ back = [] := by rw [← left]; cases skip <;> rfl
    exact absurd (List.append_eq_nil_iff.mp nothing).1 some
  | cons b text ih =>
    cases skip with
    | succ skip =>
      obtain ⟨piece,rest,rfl,erased⟩ := ih skip front some left
      exact ⟨b :: piece,rest,rfl,erased⟩
    | zero =>
      rw [eraseFrom] at left
      split at left
      next start =>
        obtain ⟨piece,rest,rfl,erased⟩ := ih _ front some left
        have long : marker.length - 1 < piece.length := by
          by_contra short
          have dropped : eraseFrom marker (marker.length - 1) piece = [] := by
            generalize marker.length - 1 = skip at short
            clear * - short
            induction piece generalizing skip with
            | nil => cases skip <;> rfl
            | cons c piece ih =>
              cases skip with
              | zero => simp at short
              | succ skip => exact ih skip (by simpa using short)
          exact some (erased.symm.trans dropped)
        have inside : marker <+: b :: piece :=
          List.prefix_of_prefix_length_le (List.isPrefixOf_iff_prefix.mp start) ⟨rest,rfl⟩ (by simp; omega)
        refine ⟨b :: piece,rest,rfl,?_⟩
        rw [eraseFrom,if_pos (List.isPrefixOf_iff_prefix.mpr inside),erased]
      next other =>
        have outside (piece rest : Bytes) (split : text = piece ++ rest) : ¬marker.isPrefixOf (b :: piece) = true := by
          intro start
          have longer : b :: piece <+: b :: text := ⟨rest,by rw [split]; rfl⟩
          exact other (List.isPrefixOf_iff_prefix.mpr ((List.isPrefixOf_iff_prefix.mp start).trans longer))
        cases front with
        | nil => exact absurd rfl some
        | cons first front =>
          obtain ⟨rfl,later⟩ := List.cons.inj left
          by_cases last : front = []
          · subst front
            refine ⟨[b],text,rfl,?_⟩
            rw [eraseFrom,if_neg (outside [] text rfl),eraseFrom]
          · obtain ⟨piece,rest,rfl,erased⟩ := ih 0 front last later
            refine ⟨b :: piece,rest,rfl,?_⟩
            rw [eraseFrom,if_neg (outside piece rest rfl),erased]

/-- What stands together after a removal stood around the removed occurrences before. -/
theorem erase_piece (marker text left : Bytes) (some : left ≠ []) (inside : left <:+: erase marker text) :
    ∃ piece, piece <:+: text ∧ ¬marker <+: piece ∧ erase marker piece = left := by
  obtain ⟨front,back,whole⟩ := inside
  rw [List.append_assoc] at whole
  obtain ⟨before,rest,rfl,fresh,erased⟩ := eraseFrom_tail marker 0 text front (left ++ back) (by simp [some]) whole.symm
  obtain ⟨piece,after,rfl,kept⟩ := eraseFrom_head marker 0 rest left back some erased
  exact ⟨piece,⟨before,after,List.append_assoc _ _ _⟩,fun start => fresh (start.trans (List.prefix_append _ _)),kept⟩

theorem erase_eq_self (marker text : Bytes) (absent : ¬marker <:+: text) : erase marker text = text := by
  induction text with
  | nil => rfl
  | cons b text ih =>
    have other : ¬marker.isPrefixOf (b :: text) = true := fun start =>
      absent (List.isPrefixOf_iff_prefix.mp start).isInfix
    have later := ih fun inside => absent (inside.trans (List.suffix_cons b text).isInfix)
    rw [erase] at later ⊢
    rw [eraseFrom,if_neg other,later]

theorem erase_of_not_mem (marker text : Bytes) (b : UInt8) (within : b ∈ marker) (absent : b ∉ text) :
    erase marker text = text :=
  erase_eq_self marker text fun inside => absent (inside.subset within)

theorem erase_sublist (marker text : Bytes) : (erase marker text).Sublist text := eraseFrom_sublist marker 0 text

theorem not_mem_erase (b : UInt8) (text : Bytes) : b ∉ erase [b] text := by
  induction text with
  | nil => simp [erase,eraseFrom]
  | cons c text ih =>
    rw [erase] at ih ⊢
    by_cases same : b = c
    · simpa [eraseFrom,same] using same ▸ ih
    · simp [eraseFrom,same,ih]

/-- A text that does not begin with the marker keeps its first byte. -/
theorem erase_first (marker text : Bytes) (b : UInt8) (rest : Bytes) (left : erase marker text = b :: rest)
    (other : ¬marker <+: text) : ∃ more, text = b :: more ∧ erase marker more = rest := by
  cases text with
  | nil => simp [erase,eraseFrom] at left
  | cons c more =>
    rw [erase,eraseFrom,if_neg fun start => other (List.isPrefixOf_iff_prefix.mp start)] at left
    obtain ⟨rfl,later⟩ := List.cons.inj left
    exact ⟨more,rfl,later⟩

/-- Three bytes of a kind are gone after their removal: nothing is removed between two that
stay, since the first of them would have been removed with it. -/
theorem not_triple_within_erase (b : UInt8) (text : Bytes) : ¬[b,b,b] <:+: erase [b,b,b] text := by
  intro inside
  obtain ⟨piece,_,fresh,three⟩ := erase_piece [b,b,b] text [b,b,b] (by simp) inside
  obtain ⟨second,rfl,two⟩ := erase_first _ _ _ _ three fresh
  obtain ⟨third,rfl,one⟩ := erase_first _ _ _ _ two (by rintro ⟨rest,rfl⟩; simp at fresh)
  obtain ⟨more,rfl,_⟩ := erase_first _ _ _ _ one (by rintro ⟨rest,rfl⟩; simp at fresh)
  simp at fresh

end Erase

section Collapse

theorem collapse_blank (g : Glyph) (row : List Glyph) (blank : g.isBlank = true) :
    collapse (g :: row) = Glyph.ofChar ' ' :: collapse (row.dropWhile Glyph.isBlank) := by
  induction row generalizing g with
  | nil => simp [collapse,blank]
  | cons next row ih =>
    rw [collapse_cons,if_pos blank]
    cases more : next.isBlank with
    | true => simp [more,ih next more]
    | false => simp [more]

theorem prefix_of_collapse (row : List Glyph) (piece : Bytes) (solid : Ascii.space ∉ piece)
    (start : piece <+: spell (collapse row)) : piece <+: spell row := by
  induction row generalizing piece with
  | nil => exact start
  | cons g row ih =>
    obtain ⟨rest,whole⟩ := start
    cases blank : g.isBlank with
    | true =>
      rw [collapse_blank g row blank] at whole
      cases piece with
      | nil => exact List.nil_prefix
      | cons b piece =>
        obtain ⟨rfl,_⟩ := List.cons.inj (whole.trans (spell_cons _ _))
        exact absurd List.mem_cons_self solid
    | false =>
      rw [collapse_cons,blank,if_neg (by decide),spell_cons] at whole
      rcases List.append_eq_append_iff.mp whole with ⟨left,inside,_⟩ | ⟨later,rfl,split⟩
      · exact ⟨left ++ spell row,by rw [spell_cons,inside,List.append_assoc]⟩
      · have behind := ih later (fun member => solid (List.mem_append_right _ member)) ⟨rest,split.symm⟩
        exact (List.prefix_append_right_inj _).mpr behind

/-- What holds no space stands in a text as it stands there after white space is collapsed. -/
theorem within_of_collapse (row : List Glyph) (piece : Bytes) (solid : Ascii.space ∉ piece)
    (inside : piece <:+: spell (collapse row)) : piece <:+: spell row := by
  induction row generalizing piece with
  | nil => exact inside
  | cons g row ih =>
    rw [collapse_cons] at inside
    split at inside
    next =>
      rw [spell_append,List.infix_append_iff] at inside
      have only : ∀ b ∈ spell (if row.head?.any Glyph.isBlank then [] else [Glyph.ofChar ' ']), b = Ascii.space := by
        split <;> decide +kernel
      have empty (part : Bytes) (clear : Ascii.space ∉ part) (within : part ⊆ _) : part = [] :=
        List.eq_nil_iff_forall_not_mem.mpr fun b member => clear (only b (within member) ▸ member)
      rcases inside with before | later | ⟨left,right,rfl,before,start⟩
      · rw [empty piece solid before.subset]
        exact List.nil_infix
      · exact (ih piece solid later).trans (List.suffix_append _ _).isInfix
      · have none := empty left (fun member => solid (List.mem_append_left _ member)) before.subset
        have later := ih right (fun member => solid (List.mem_append_right _ member)) start.isInfix
        rw [none,List.nil_append]
        exact later.trans (List.suffix_append _ _).isInfix
    next =>
      rw [spell_cons,List.infix_append_iff] at inside
      rcases inside with before | later | ⟨left,right,rfl,before,start⟩
      · exact before.trans (List.prefix_append _ _).isInfix
      · exact (ih piece solid later).trans (List.suffix_append _ _).isInfix
      · have behind := prefix_of_collapse row right (fun member => solid (List.mem_append_right _ member)) start
        exact List.infix_append_iff.mpr (.inr (.inr ⟨left,right,rfl,before,behind⟩))

end Collapse

section Strip

theorem strip_eq_self (text : Bytes) (absent : ∀ marker ∈ markers, ¬marker <:+: text) : strip text = text := by
  unfold strip
  generalize markers = list at absent
  induction list with
  | nil => rfl
  | cons marker list ih =>
    obtain ⟨first,others⟩ := List.forall_mem_cons.mp absent
    rw [List.foldl_cons,erase_eq_self marker text first]
    exact ih others

theorem strip_piece (text left : Bytes) (inside : left <:+: strip text) :
    ∃ piece, piece <:+: text ∧ strip piece = left := by
  unfold strip at inside ⊢
  generalize markers = list at inside ⊢
  induction list generalizing text with
  | nil => exact ⟨left,inside,rfl⟩
  | cons marker list ih =>
    obtain ⟨kept,within,stripped⟩ := ih (erase marker text) inside
    by_cases nothing : kept = []
    · subst kept
      exact ⟨[],List.nil_infix,stripped⟩
    · obtain ⟨piece,stands,_,erased⟩ := erase_piece marker text kept nothing within
      exact ⟨piece,stands,by rw [List.foldl_cons,erased,stripped]⟩

theorem within_squeeze_of_clean (text piece : Bytes) (inside : piece <:+: clean text) : piece <:+: squeeze text := by
  refine inside.trans (spell_within _ _ ?_)
  have front := List.dropWhile_suffix Glyph.isBlank (l := glyphs (squeeze text))
  have back := List.rdropWhile_prefix Glyph.isBlank (l := (glyphs (squeeze text)).dropWhile Glyph.isBlank)
  exact back.isInfix.trans front.isInfix

theorem mem_of_mem_collapse (text : Bytes) (b : UInt8) (other : b ≠ Ascii.space)
    (member : b ∈ spell (collapse (glyphs text))) : b ∈ text := by
  have single : [b] <:+: spell (glyphs text) := by
    refine within_of_collapse (glyphs text) [b] (by simpa using other.symm) ?_
    obtain ⟨left,right,whole⟩ := List.append_of_mem member
    exact ⟨left,right,by rw [whole,List.append_assoc,List.singleton_append]⟩
  rw [spell_glyphs] at single
  exact single.subset List.mem_cons_self

theorem semicolon_not_mem_clean (text : Bytes) : Ascii.semicolon ∉ clean text := by
  intro member
  obtain ⟨left,right,whole⟩ := List.append_of_mem member
  have inside : [Ascii.semicolon] <:+: clean text := ⟨left,right,by rw [whole,List.append_assoc,List.singleton_append]⟩
  exact not_mem_erase _ _ ((within_squeeze_of_clean text _ inside).subset List.mem_cons_self)

/-- Three bytes of a kind stay away if none of the markers removed after them can occur. -/
theorem triple_not_within_clean (text : Bytes) (c : UInt8) (before after : List Bytes)
    (order : markers = before ++ [c,c,c] :: after)
    (idle : ∀ marker ∈ after, ∃ b ∈ marker, b ≠ Ascii.space ∧ b ∉ text) : ¬[c,c,c] <:+: clean text := by
  intro inside
  have within := within_squeeze_of_clean text _ inside
  have unchanged (list : List Bytes) (unseen : ∀ marker ∈ list, ∃ b ∈ marker, b ≠ Ascii.space ∧ b ∉ text) (left : Bytes)
      (part : left.Sublist (spell (collapse (glyphs text)))) :
      list.foldl (fun left marker => erase marker left) left = left := by
    induction list with
    | nil => rfl
    | cons marker list ih =>
      obtain ⟨⟨b,member,other,absent⟩,rest⟩ := List.forall_mem_cons.mp unseen
      have missing : b ∉ left := fun there => absent (mem_of_mem_collapse text b other (part.subset there))
      rw [List.foldl_cons,erase_of_not_mem marker left b member missing]
      exact ih rest
  have shrinks (list : List Bytes) (whole : Bytes) : (list.foldl (fun left marker => erase marker left) whole).Sublist whole := by
    induction list generalizing whole with
    | nil => exact List.Sublist.refl whole
    | cons marker list ih => exact (ih _).trans (erase_sublist marker whole)
  rw [squeeze,strip,order,List.foldl_append,List.foldl_cons,
    unchanged after idle _ ((erase_sublist _ _).trans (shrinks before _))] at within
  exact not_triple_within_erase c _ within

theorem torn_of_within_clean (text marker : Bytes) (listed : marker ∈ markers) (inside : marker <:+: clean text) :
    ∃ piece, piece <:+: text ∧ strip piece = marker ∧ ∃ other ∈ markers, other <:+: piece := by
  obtain ⟨piece,stands,stripped⟩ := strip_piece _ _ (within_squeeze_of_clean text marker inside)
  have solid : Ascii.space ∉ piece := by
    intro member
    obtain ⟨left,right,rfl⟩ := List.append_of_mem member
    rw [strip_append left _ right (by decide)] at stripped
    have clear : ∀ marker ∈ markers, Ascii.space ∉ marker := by decide
    exact clear marker listed (stripped ▸ by simp)
  refine ⟨piece,?_,stripped,?_⟩
  · have within := within_of_collapse (glyphs text) piece solid stands
    rwa [spell_glyphs] at within
  · by_contra none
    have same := strip_eq_self piece fun other member within => none ⟨other,member,within⟩
    exact none ⟨marker,listed,(stripped.symm.trans same) ▸ List.infix_rfl⟩

theorem clean_cut (marker left right : Bytes) (listed : marker ∈ markers) (first : left ≠ []) (second : right ≠ [])
    (early : left.length < 3) (split : marker = left ++ right) : clean (left ++ Ascii.semicolon :: right) = marker := by
  have each : ∀ marker ∈ markers, ∀ count ∈ List.range 3, marker.take count ≠ [] → marker.drop count ≠ [] →
      clean (marker.take count ++ Ascii.semicolon :: marker.drop count) = marker := by
    decide +kernel
  subst split
  have cut := each _ listed left.length (List.mem_range.mpr early)
  rw [List.take_left,List.drop_left] at cut
  exact cut first second

end Strip

/-- Cleaning leaves no semicolon. It leaves no fence if there was no semicolon, no three
apostrophes if there was no backtick either, and no three quotes if there was moreover no
apostrophe. Any marker that it leaves was torn apart in the text by another one, and a
semicolon among its first three bytes tears each of them. -/
theorem clean_leaves_torn_markers (text : Bytes) :
    Ascii.semicolon ∉ clean text ∧
    (Ascii.semicolon ∉ text → ∀ fence ∈ [utf8 "```sql",utf8 "```json",utf8 "```"], ¬fence <:+: clean text) ∧
    (Ascii.semicolon ∉ text → Ascii.backtick ∉ text → ¬utf8 "'''" <:+: clean text) ∧
    (Ascii.semicolon ∉ text → Ascii.backtick ∉ text → Ascii.apostrophe ∉ text → ¬utf8 "\"\"\"" <:+: clean text) ∧
    (∀ marker ∈ markers, marker <:+: clean text →
      ∃ piece, piece <:+: text ∧ strip piece = marker ∧ ∃ other ∈ markers, other <:+: piece) ∧
    ∀ marker ∈ markers, ∀ left right, left ≠ [] → right ≠ [] → left.length < 3 → marker = left ++ right →
      clean (left ++ Ascii.semicolon :: right) = marker := by
  have semicolon (absent : Ascii.semicolon ∉ text) : ∃ b ∈ utf8 ";", b ≠ Ascii.space ∧ b ∉ text :=
    ⟨Ascii.semicolon,by decide,by decide,absent⟩
  have backtick (absent : Ascii.backtick ∉ text) : ∃ b ∈ utf8 "```", b ≠ Ascii.space ∧ b ∉ text :=
    ⟨Ascii.backtick,by decide,by decide,absent⟩
  have apostrophe (absent : Ascii.apostrophe ∉ text) : ∃ b ∈ utf8 "'''", b ≠ Ascii.space ∧ b ∉ text :=
    ⟨Ascii.apostrophe,by decide,by decide,absent⟩
  refine ⟨semicolon_not_mem_clean text,?_,?_,?_,torn_of_within_clean text,?_⟩
  · intro unbroken fence listed inside
    have bare : ∀ fence ∈ [utf8 "```sql",utf8 "```json",utf8 "```"], utf8 "```" <:+: fence := by decide +kernel
    refine triple_not_within_clean text Ascii.backtick (markers.take 4) [utf8 ";"] rfl ?_
      ((bare fence listed).trans inside)
    simpa using semicolon unbroken
  · intro unbroken unfenced
    refine triple_not_within_clean text Ascii.apostrophe (markers.take 3) [utf8 "```",utf8 ";"] rfl ?_
    simpa using ⟨backtick unfenced,semicolon unbroken⟩
  · intro unbroken unfenced unquoted
    refine triple_not_within_clean text Ascii.quote (markers.take 2) [utf8 "'''",utf8 "```",utf8 ";"] rfl ?_
    simpa using ⟨apostrophe unquoted,backtick unfenced,semicolon unbroken⟩
  · intro marker listed left right first second early
    exact clean_cut marker left right listed first second early

/-- A fence around three apostrophes: both are gone, and no semicolon was there. -/
theorem clean_leaves_torn_markers_fenced :
    let text := utf8 "```sql SELECT '''a''' ```"
    Ascii.semicolon ∉ text ∧ ¬utf8 "```" <:+: clean text ∧ clean (utf8 "`;``sql") = utf8 "```sql" := by
  intro text
  have unbroken : Ascii.semicolon ∉ text := by decide +kernel
  obtain ⟨_,fences,_,_,_,torn⟩ := clean_leaves_torn_markers text
  exact ⟨unbroken,fences unbroken _ (by simp),
    torn (utf8 "```sql") (by decide) (utf8 "`") (utf8 "``sql") (by decide) (by decide) (by decide) (by decide)⟩

/-- A fence torn by a semicolon is put together by cleaning. -/
theorem marker_within_clean : ¬∀ marker ∈ markers, ¬marker <:+: clean (utf8 "SELECT 1 `;``") := by
  decide +kernel

end SqlTidy
