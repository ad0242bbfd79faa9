import SqlTidy.Proofs.Text.Validity

/-! Runs of code points of one class. No byte of a run continues what stands before it, and
none is continued by what stands behind: a run is found in a text exactly where it is found in
the row of glyphs. -/
namespace SqlTidy

namespace Utf8

theorem double?_of_number (b c : UInt8) (x : Char) (least : 0xC2 ≤ b.toNat) (most : b.toNat ≤ 0xDF)
    (second : isContinuation c = true) (number : (b.toNat - 0xC0) * 64 + payload c = x.toNat) :
    double? b c = some x := by
  have fits : (0xC2 ≤ b && b ≤ 0xDF && isContinuation c) = true := by
    simp only [Bool.and_eq_true,decide_eq_true_eq,UInt8.le_iff_toNat_le]
    exact ⟨⟨least,most⟩,second⟩
  rw [double?,if_pos fits,number,Char.ofNat_toNat]

theorem triple?_of_number (b c d : UInt8) (x : Char) (least : 0xE0 ≤ b.toNat) (most : b.toNat ≤ 0xEF)
    (second : isContinuation c = true) (third : isContinuation d = true) (large : 0x800 ≤ x.toNat)
    (number : (b.toNat - 0xE0) * 4096 + payload c * 64 + payload d = x.toNat) : triple? b c d = some x := by
  have valid : x.toNat < 0xD800 ∨ 0xDFFF < x.toNat ∧ x.toNat < 0x110000 := x.valid
  have regular : ¬(0xD800 ≤ x.toNat ∧ x.toNat ≤ 0xDFFF) := by omega
  have fits : (0xE0 ≤ b && b ≤ 0xEF && isContinuation c && isContinuation d && 0x800 ≤ x.toNat &&
      !(0xD800 ≤ x.toNat && x.toNat ≤ 0xDFFF)) = true := by
    simp only [Bool.and_eq_true,decide_eq_true_eq,UInt8.le_iff_toNat_le,Bool.not_eq_true',← Bool.decide_and,
      decide_eq_false_iff_not]
    exact ⟨⟨⟨⟨⟨least,most⟩,second⟩,third⟩,large⟩,regular⟩
  simp only [triple?,number]
  rw [if_pos fits,Char.ofNat_toNat]

theorem quadruple?_of_number (b c d e : UInt8) (x : Char) (least : 0xF0 ≤ b.toNat) (most : b.toNat ≤ 0xF4)
    (second : isContinuation c = true) (third : isContinuation d = true) (fourth : isContinuation e = true)
    (large : 0x10000 ≤ x.toNat)
    (number : (b.toNat - 0xF0) * 262144 + payload c * 4096 + payload d * 64 + payload e = x.toNat) :
    quadruple? b c d e = some x := by
  have valid : x.toNat < 0xD800 ∨ 0xDFFF < x.toNat ∧ x.toNat < 0x110000 := x.valid
  have fits : (0xF0 ≤ b && b ≤ 0xF4 && isContinuation c && isContinuation d && isContinuation e && 0x10000 ≤ x.toNat &&
      x.toNat ≤ 0x10FFFF) = true := by
    simp only [Bool.and_eq_true,decide_eq_true_eq,UInt8.le_iff_toNat_le]
    exact ⟨⟨⟨⟨⟨⟨least,most⟩,second⟩,third⟩,fourth⟩,large⟩,by omega⟩
  simp only [quadruple?,number]
  rw [if_pos fits,Char.ofNat_toNat]

section Lead

variable (b : UInt8)

theorem single?_of_large (large : 0x80 ≤ b.toNat) : single? b = none := by
  have outside : ¬b < 0x80 := by simpa [UInt8.lt_iff_toNat_lt] using large
  simp [single?,outside]

theorem double?_of_large (c : UInt8) (large : 0xE0 ≤ b.toNat) : double? b c = none := by
  cases two : double? b c with
  | none => rfl
  | some x =>
    have bound := (double?_eq_some b c x two).2.1
    omega

theorem triple?_of_large (c d : UInt8) (large : 0xF0 ≤ b.toNat) : triple? b c d = none := by
  cases three : triple? b c d with
  | none => rfl
  | some x =>
    have bound := (triple?_eq_some b c d x three).2.1
    omega

end Lead

/-- Every code point is read from its shortest encoding. -/
theorem encodes_utf8EncodeChar (x : Char) : Encodes (String.utf8EncodeChar x) x := by
  have byte (n : Nat) (small : n < 256) : (UInt8.ofNat n).toNat = n := UInt8.toNat_ofNat_of_lt' small
  have follows (n : Nat) : isContinuation (UInt8.ofNat (n % 64 + 128)) = true ∧
      payload (UInt8.ofNat (n % 64 + 128)) = n % 64 := by
    have number := byte (n % 64 + 128) (by omega)
    constructor
    · exact (isContinuation_iff _).mpr (by omega)
    · unfold payload
      omega
  have valid : x.toNat < 0xD800 ∨ 0xDFFF < x.toNat ∧ x.toNat < 0x110000 := x.valid
  have code : x.val.toNat = x.toNat := rfl
  unfold String.utf8EncodeChar
  simp only [code]
  -- The lengths of an encoding, by the size of the code point.
  rcases Nat.lt_or_ge x.toNat 0x80 with small | one
  · have lead := byte x.toNat (by omega)
    have below : UInt8.ofNat x.toNat < 0x80 := UInt8.lt_iff_toNat_lt.mpr (by rw [lead]; exact small)
    rw [if_pos (by omega)]
    exact .single _ x (by rw [single?,if_pos below,lead,Char.ofNat_toNat])
  rcases Nat.lt_or_ge x.toNat 0x800 with small | two
  · have lead := byte (x.toNat / 64 % 32 + 192) (by omega)
    obtain ⟨second,bits⟩ := follows x.toNat
    rw [if_neg (by omega),if_pos (by omega)]
    exact .double _ _ x (single?_of_large _ (by omega))
      (double?_of_number _ _ x (by omega) (by omega) second (by omega))
  rcases Nat.lt_or_ge x.toNat 0x10000 with small | three
  · have lead := byte (x.toNat / 4096 % 16 + 224) (by omega)
    obtain ⟨second,high⟩ := follows (x.toNat / 64)
    obtain ⟨third,low⟩ := follows x.toNat
    rw [if_neg (by omega),if_neg (by omega),if_pos (by omega)]
    exact .triple _ _ _ x (single?_of_large _ (by omega)) (double?_of_large _ _ (by omega))
      (triple?_of_number _ _ _ x (by omega) (by omega) second third two (by omega))
  · have lead := byte (x.toNat / 262144 % 8 + 240) (by omega)
    obtain ⟨second,high⟩ := follows (x.toNat / 4096)
    obtain ⟨third,middle⟩ := follows (x.toNat / 64)
    obtain ⟨fourth,low⟩ := follows x.toNat
    rw [if_neg (by omega),if_neg (by omega),if_neg (by omega)]
    exact .quadruple _ _ _ _ x (single?_of_large _ (by omega)) (double?_of_large _ _ (by omega))
      (triple?_of_large _ _ _ (by omega))
      (quadruple?_of_number _ _ _ _ x (by omega) (by omega) second third fourth three (by omega))

theorem Encodes.head_stops {bytes : Bytes} {x : Char} (encodes : Encodes bytes x) (rest : Bytes) :
    ∀ next ∈ (bytes ++ rest).head?, isContinuation next = false := by
  have outside (b : UInt8) (range : b.toNat < 0x80 ∨ 0xBF < b.toNat) : isContinuation b = false := by
    rw [Bool.eq_false_iff,ne_eq,isContinuation_iff]
    omega
  intro next first
  cases encodes with
  | single b x one =>
    obtain rfl := Option.some.inj first
    simp only [single?] at one
    split at one
    next small => exact isContinuation_ascii _ small
    next => simp at one
  | double b c x _ two =>
    obtain rfl := Option.some.inj first
    have lead := (double?_eq_some _ c x two).1
    exact outside _ (.inr (by omega))
  | triple b c d x _ _ three =>
    obtain rfl := Option.some.inj first
    have lead := (triple?_eq_some _ c d x three).1
    exact outside _ (.inr (by omega))
  | quadruple b c d e x _ _ _ four =>
    obtain rfl := Option.some.inj first
    have lead := (quadruple?_eq_some _ c d e x four).1
    exact outside _ (.inr (by omega))

end Utf8

open Utf8

theorem glyphs_utf8EncodeChar (c : Char) (rest : Bytes) :
    glyphs (String.utf8EncodeChar c ++ rest) = Glyph.ofChar c :: glyphs rest :=
  glyphs_encoded _ rest c (encodes_utf8EncodeChar c)

theorem glyph_eq_ofChar (text : Bytes) (g : Glyph) (member : g ∈ glyphs text) (c : Char) (read : g.char? = some c) :
    g = Glyph.ofChar c := by
  induction text using text_induction with
  | nil => simp at member
  | encoded bytes rest x encodes ih =>
    rw [glyphs_encoded _ _ _ encodes] at member
    rcases List.mem_cons.mp member with rfl | later
    · obtain rfl := Option.some.inj read
      rw [Glyph.ofChar,← encodes.eq_utf8EncodeChar]
    · exact ih later
  | stray b rest missing ih =>
    rw [glyphs_stray _ _ missing] at member
    rcases List.mem_cons.mp member with rfl | later
    · simp [Glyph.stray] at read
    · exact ih later

theorem exists_ofChar (text : Bytes) (g : Glyph) (member : g ∈ glyphs text) (test : Char → Bool)
    (passes : g.is test = true) : ∃ c, test c = true ∧ g = Glyph.ofChar c := by
  obtain ⟨c,read,inside⟩ := (Option.any_eq_true ..).mp passes
  exact ⟨c,inside,glyph_eq_ofChar text g member c read⟩

/-- Code points of one class, one behind the other. -/
structure Run (test : Char → Bool) where
  chars : List Char
  among : ∀ c ∈ chars, test c = true

namespace Run

variable {test : Char → Bool}

def text (run : Run test) : Bytes := run.chars.flatMap String.utf8EncodeChar

def row (run : Run test) : List Glyph := run.chars.map Glyph.ofChar

def single (c : Char) (inside : test c = true) : Run test := ⟨[c],by simpa using inside⟩

def append (left right : Run test) : Run test where
  chars := left.chars ++ right.chars
  among := List.forall_mem_append.mpr ⟨left.among,right.among⟩

@[simp] theorem text_single (c : Char) (inside : test c = true) : (single c inside).text = String.utf8EncodeChar c :=
  List.append_nil _

@[simp] theorem row_single (c : Char) (inside : test c = true) : (single c inside).row = [Glyph.ofChar c] := rfl

@[simp] theorem text_append (left right : Run test) : (left.append right).text = left.text ++ right.text :=
  List.flatMap_append

@[simp] theorem row_append (left right : Run test) : (left.append right).row = left.row ++ right.row :=
  List.map_append

variable (run : Run test)

theorem spell_row : spell run.row = run.text := List.flatMap_map ..

theorem is_of_mem_row : ∀ g ∈ run.row, g.is test = true := by
  intro g member
  obtain ⟨c,inside,rfl⟩ := List.mem_map.mp member
  exact run.among c inside

theorem glyphs_text_append (rest : Bytes) : glyphs (run.text ++ rest) = run.row ++ glyphs rest := by
  unfold text row
  induction run.chars with
  | nil => rfl
  | cons c chars ih =>
    rw [List.flatMap_cons,List.append_assoc,glyphs_utf8EncodeChar,ih,List.map_cons,List.cons_append]

theorem text_stops (rest : Bytes) (stop : ∀ next ∈ rest.head?, isContinuation next = false) :
    ∀ next ∈ (run.text ++ rest).head?, isContinuation next = false := by
  unfold text
  cases run.chars with
  | nil => exact stop
  | cons c chars =>
    rw [List.flatMap_cons,List.append_assoc]
    exact (encodes_utf8EncodeChar c).head_stops _

/-- A text may be cut before and behind a run. -/
theorem glyphs_between (front back : Bytes) (stop : run.chars ≠ [] ∨ back = []) :
    glyphs (front ++ (run.text ++ back)) = glyphs front ++ (run.row ++ glyphs back) := by
  rw [glyphs_append,run.glyphs_text_append]
  rcases stop with some | rfl
  · obtain ⟨c,chars,split⟩ := List.exists_cons_of_ne_nil some
    rw [text,split,List.flatMap_cons,List.append_assoc]
    exact (encodes_utf8EncodeChar c).head_stops _
  · exact run.text_stops [] (by simp)

theorem glyphs_append_text (front : Bytes) : glyphs (front ++ run.text) = glyphs front ++ run.row := by
  have whole := run.glyphs_between front [] (.inr rfl)
  rwa [List.append_nil,glyphs_nil,List.append_nil] at whole

section Inside

variable (text : Bytes)

theorem text_prefix_iff : run.text <+: text ↔ run.row <+: glyphs text := by
  constructor
  · rintro ⟨rest,rfl⟩
    exact ⟨glyphs rest,(run.glyphs_text_append rest).symm⟩
  · rintro ⟨rest,read⟩
    exact ⟨spell rest,by rw [← run.spell_row,← spell_append,read,spell_glyphs]⟩

theorem text_suffix_iff : run.text <:+ text ↔ run.row <:+ glyphs text := by
  constructor
  · rintro ⟨front,rfl⟩
    exact ⟨glyphs front,(run.glyphs_append_text front).symm⟩
  · rintro ⟨front,read⟩
    exact ⟨spell front,by rw [← run.spell_row,← spell_append,read,spell_glyphs]⟩

theorem text_infix_iff (some : run.chars ≠ []) : run.text <:+: text ↔ run.row <:+: glyphs text := by
  constructor
  · rintro ⟨front,back,rfl⟩
    rw [List.append_assoc,run.glyphs_between front back (.inl some)]
    exact ⟨glyphs front,glyphs back,List.append_assoc _ _ _⟩
  · intro inside
    rw [← run.spell_row]
    exact spell_within text run.row inside

end Inside

/-- Glyphs of a class are a run. -/
theorem exists_row (text : Bytes) (row : List Glyph) (inside : row ⊆ glyphs text)
    (among : ∀ g ∈ row, g.is test = true) : ∃ run : Run test, run.row = row := by
  induction row with
  | nil => exact ⟨⟨[],by simp⟩,rfl⟩
  | cons g row ih =>
    obtain ⟨first,others⟩ := List.forall_mem_cons.mp among
    obtain ⟨member,rest⟩ := List.cons_subset.mp inside
    obtain ⟨c,passes,rfl⟩ := exists_ofChar text g member test first
    obtain ⟨run,rfl⟩ := ih rest others
    exact ⟨(single c passes).append run,row_append _ _⟩

end Run

/-! Where a text holds code points of a class. -/

section Places

variable (test : Char → Bool) (text : Bytes)

theorem not_prefix_iff : (∀ c, test c = true → ¬String.utf8EncodeChar c <+: text) ↔
    ∀ g ∈ (glyphs text).head?, g.is test = false := by
  constructor
  · intro never g head
    refine Bool.eq_false_iff.mpr fun passes => ?_
    obtain ⟨c,inside,rfl⟩ := exists_ofChar text g (List.mem_of_mem_head? head) test passes
    obtain ⟨rest,split⟩ := List.head?_eq_some_iff.mp head
    refine never c inside ?_
    rw [← Run.text_single c inside,Run.text_prefix_iff]
    exact ⟨rest,split.symm⟩
  · intro head c inside start
    rw [← Run.text_single c inside,Run.text_prefix_iff] at start
    obtain ⟨rest,split⟩ := start
    have fails := head (Glyph.ofChar c) (by simp [← split])
    exact absurd (inside.symm.trans fails) (by decide)

theorem not_suffix_iff : (∀ c, test c = true → ¬String.utf8EncodeChar c <:+ text) ↔
    ∀ g ∈ (glyphs text).getLast?, g.is test = false := by
  constructor
  · intro never g last
    refine Bool.eq_false_iff.mpr fun passes => ?_
    obtain ⟨c,inside,rfl⟩ := exists_ofChar text g (List.mem_of_getLast? last) test passes
    obtain ⟨front,split⟩ := List.getLast?_eq_some_iff.mp last
    refine never c inside ?_
    rw [← Run.text_single c inside,Run.text_suffix_iff]
    exact ⟨front,split.symm⟩
  · intro last c inside ends
    rw [← Run.text_single c inside,Run.text_suffix_iff] at ends
    obtain ⟨front,split⟩ := ends
    have fails := last (Glyph.ofChar c) (by simp [← split])
    exact absurd (inside.symm.trans fails) (by decide)

theorem infix_only_iff (only : Char) :
    (∀ c, test c = true → String.utf8EncodeChar c <:+: text → c = only) ↔
      ∀ g ∈ glyphs text, g.is test = true → g = Glyph.ofChar only := by
  constructor
  · intro same g member passes
    obtain ⟨c,inside,rfl⟩ := exists_ofChar text g member test passes
    obtain ⟨front,back,split⟩ := List.append_of_mem member
    refine congrArg Glyph.ofChar (same c inside ?_)
    rw [← Run.text_single c inside,Run.text_infix_iff _ _ (by simp [Run.single])]
    exact ⟨front,back,by simp [split]⟩
  · intro all c inside within
    rw [← Run.text_single c inside,Run.text_infix_iff _ _ (by simp [Run.single])] at within
    have same := all (Glyph.ofChar c) (within.subset (by simp)) inside
    exact Option.some.inj (congrArg Glyph.char? same)

end Places

end SqlTidy
