import SqlTidy.Text.Utf8

/-! Reading a text glyph by glyph. What a glyph is depends on its own bytes alone: a text
can be cut before any byte that continues no other, and every piece of a row of glyphs
reads as that piece again. -/
namespace SqlTidy

namespace Utf8

/-- The bytes of one code point. -/
inductive Encodes : Bytes → Char → Prop where
  | single (b : UInt8) (x : Char) (one : single? b = some x) : Encodes [b] x
  | double (b c : UInt8) (x : Char) (no : single? b = none) (two : double? b c = some x) : Encodes [b,c] x
  | triple (b c d : UInt8) (x : Char) (no : single? b = none) (noTwo : double? b c = none)
      (three : triple? b c d = some x) : Encodes [b,c,d] x
  | quadruple (b c d e : UInt8) (x : Char) (no : single? b = none) (noTwo : double? b c = none)
      (noThree : triple? b c d = none) (four : quadruple? b c d e = some x) : Encodes [b,c,d,e] x

theorem head?_eq_some (text : Bytes) (size : Nat) (x : Char) :
    head? text = some (size,x) ↔ ∃ bytes rest, text = bytes ++ rest ∧ bytes.length = size ∧ Encodes bytes x := by
  constructor
  · intro found
    cases text with
    | nil => simp [head?] at found
    | cons b text =>
      cases one : single? b with
      | some y =>
        simp only [head?,one,Option.some.injEq,Prod.mk.injEq] at found
        obtain ⟨rfl,rfl⟩ := found
        exact ⟨[b],text,rfl,rfl,.single b y one⟩
      | none =>
        cases text with
        | nil => simp [head?,one] at found
        | cons c text =>
          cases two : double? b c with
          | some y =>
            simp only [head?,one,two,Option.some.injEq,Prod.mk.injEq] at found
            obtain ⟨rfl,rfl⟩ := found
            exact ⟨[b,c],text,rfl,rfl,.double b c y one two⟩
          | none =>
            cases text with
            | nil => simp [head?,one,two] at found
            | cons d text =>
              cases three : triple? b c d with
              | some y =>
                simp only [head?,one,two,three,Option.some.injEq,Prod.mk.injEq] at found
                obtain ⟨rfl,rfl⟩ := found
                exact ⟨[b,c,d],text,rfl,rfl,.triple b c d y one two three⟩
              | none =>
                cases text with
                | nil => simp [head?,one,two,three] at found
                | cons e text =>
                  simp only [head?,one,two,three,Option.map_eq_some_iff,Prod.mk.injEq] at found
                  obtain ⟨y,four,rfl,rfl⟩ := found
                  exact ⟨[b,c,d,e],text,rfl,rfl,.quadruple b c d e y one two three four⟩
  · rintro ⟨bytes,rest,rfl,rfl,encodes⟩
    cases encodes with
    | single b x one => simp [head?,one]
    | double b c x one two => simp [head?,one,two]
    | triple b c d x one two three => simp [head?,one,two,three]
    | quadruple b c d e x one two three four => simp [head?,one,two,three,four]

theorem toNat_ofNat (n : Nat) (valid : n.isValidChar) : (Char.ofNat n).toNat = n := by
  rw [Char.ofNat,dif_pos valid]
  rfl

theorem isContinuation_iff (b : UInt8) : isContinuation b = true ↔ 0x80 ≤ b.toNat ∧ b.toNat ≤ 0xBF := by
  simp [isContinuation,UInt8.le_iff_toNat_le]

theorem double?_eq_some (b c : UInt8) (x : Char) (two : double? b c = some x) :
    0xC2 ≤ b.toNat ∧ b.toNat ≤ 0xDF ∧ isContinuation c = true ∧ x.toNat = (b.toNat - 0xC0) * 64 + payload c := by
  simp only [double?] at two
  split at two
  next fits =>
    simp only [Bool.and_eq_true,decide_eq_true_eq,UInt8.le_iff_toNat_le] at fits
    obtain ⟨⟨least,most⟩,follows⟩ := fits
    have range := (isContinuation_iff c).mp follows
    change 0xC2 ≤ b.toNat at least
    change b.toNat ≤ 0xDF at most
    refine ⟨least,most,follows,?_⟩
    have valid : Nat.isValidChar ((b.toNat - 0xC0) * 64 + payload c) := by
      unfold Nat.isValidChar payload
      omega
    rw [← Option.some.inj two,toNat_ofNat _ valid]
  next => simp at two

theorem triple?_eq_some (b c d : UInt8) (x : Char) (three : triple? b c d = some x) :
    0xE0 ≤ b.toNat ∧ b.toNat ≤ 0xEF ∧ isContinuation c = true ∧ isContinuation d = true ∧ 0x800 ≤ x.toNat ∧
      x.toNat = (b.toNat - 0xE0) * 4096 + payload c * 64 + payload d := by
  simp only [triple?] at three
  split at three
  next fits =>
    simp only [Bool.and_eq_true,decide_eq_true_eq,UInt8.le_iff_toNat_le,Bool.not_eq_true',
      Bool.and_eq_false_iff,decide_eq_false_iff_not] at fits
    obtain ⟨⟨⟨⟨⟨least,most⟩,second⟩,third⟩,large⟩,regular⟩ := fits
    have secondRange := (isContinuation_iff c).mp second
    have thirdRange := (isContinuation_iff d).mp third
    change 0xE0 ≤ b.toNat at least
    change b.toNat ≤ 0xEF at most
    have valid : Nat.isValidChar ((b.toNat - 0xE0) * 4096 + payload c * 64 + payload d) := by
      unfold Nat.isValidChar payload at *
      omega
    rw [← Option.some.inj three,toNat_ofNat _ valid]
    exact ⟨least,most,second,third,large,rfl⟩
  next => simp at three

theorem quadruple?_eq_some (b c d e : UInt8) (x : Char) (four : quadruple? b c d e = some x) :
    0xF0 ≤ b.toNat ∧ b.toNat ≤ 0xF4 ∧ isContinuation c = true ∧ isContinuation d = true ∧ isContinuation e = true ∧
      0x10000 ≤ x.toNat ∧
      x.toNat = (b.toNat - 0xF0) * 262144 + payload c * 4096 + payload d * 64 + payload e := by
  simp only [quadruple?] at four
  split at four
  next fits =>
    simp only [Bool.and_eq_true,decide_eq_true_eq,UInt8.le_iff_toNat_le] at fits
    obtain ⟨⟨⟨⟨⟨⟨least,lead⟩,second⟩,third⟩,fourth⟩,large⟩,most⟩ := fits
    change 0xF0 ≤ b.toNat at least
    change b.toNat ≤ 0xF4 at lead
    have valid : Nat.isValidChar
        ((b.toNat - 0xF0) * 262144 + payload c * 4096 + payload d * 64 + payload e) := by
      unfold Nat.isValidChar
      omega
    rw [← Option.some.inj four,toNat_ofNat _ valid]
    exact ⟨least,lead,second,third,fourth,large,rfl⟩
  next => simp at four

namespace Encodes

variable {bytes : Bytes} {x : Char}

theorem ne_nil (encodes : Encodes bytes x) : bytes ≠ [] := by
  cases encodes <;> simp

theorem continues (encodes : Encodes bytes x) : ∀ b ∈ bytes.tail, isContinuation b = true := by
  cases encodes with
  | single => simp
  | double b c x _ two =>
    obtain ⟨_,_,second,_⟩ := double?_eq_some b c x two
    simp [second]
  | triple b c d x _ _ three =>
    obtain ⟨_,_,second,third,_⟩ := triple?_eq_some b c d x three
    simp [second,third]
  | quadruple b c d e x _ _ _ four =>
    obtain ⟨_,_,second,third,fourth,_⟩ := quadruple?_eq_some b c d e x four
    simp [second,third,fourth]

/-- A code point is encoded by one ASCII byte, or by other bytes alone. -/
theorem ascii_or_large (encodes : Encodes bytes x) :
    (∃ b, b < 0x80 ∧ bytes = [b] ∧ x = Char.ofNat b.toNat) ∨ ((∀ b ∈ bytes, 0x80 ≤ b.toNat) ∧ 0x80 ≤ x.toNat) := by
  have tail : ∀ b ∈ bytes.tail, 0x80 ≤ b.toNat := fun b member => ((isContinuation_iff b).mp (encodes.continues b member)).1
  cases encodes with
  | single b x one =>
    left
    simp only [single?] at one
    split at one
    next small => exact ⟨b,small,rfl,(Option.some.inj one).symm⟩
    next => simp at one
  | double b c x _ two =>
    obtain ⟨lead,_,_,code⟩ := double?_eq_some b c x two
    exact .inr ⟨List.forall_mem_cons.mpr ⟨by omega,tail⟩,by omega⟩
  | triple b c d x _ _ three =>
    obtain ⟨lead,_,_,_,large,_⟩ := triple?_eq_some b c d x three
    exact .inr ⟨List.forall_mem_cons.mpr ⟨by omega,tail⟩,by omega⟩
  | quadruple b c d e x _ _ _ four =>
    obtain ⟨lead,_,_,_,_,large,_⟩ := quadruple?_eq_some b c d e x four
    exact .inr ⟨List.forall_mem_cons.mpr ⟨by omega,tail⟩,by omega⟩

end Encodes

theorem head?_append (text more : Bytes) (size : Nat) (x : Char) (found : head? text = some (size,x)) :
    head? (text ++ more) = some (size,x) := by
  obtain ⟨bytes,rest,rfl,length,encodes⟩ := (head?_eq_some _ _ _).mp found
  exact (head?_eq_some _ _ _).mpr ⟨bytes,rest ++ more,List.append_assoc _ _ _,length,encodes⟩

/-- No glyph goes on behind a byte that continues none. -/
theorem head?_append_of_stop (b : UInt8) (rest more : Bytes)
    (stop : ∀ next ∈ more.head?, isContinuation next = false) : head? (b :: rest ++ more) = head? (b :: rest) := by
  cases whole : head? (b :: rest ++ more) with
  | none =>
    cases part : head? (b :: rest) with
    | none => rfl
    | some found => exact whole.symm.trans (head?_append _ more _ _ part)
  | some found =>
    obtain ⟨bytes,left,split,length,encodes⟩ := (head?_eq_some _ _ _).mp whole
    rcases List.append_eq_append_iff.mp split with ⟨excess,cut,tail⟩ | ⟨excess,cut,_⟩
    · cases excess with
      | nil => exact ((head?_eq_some _ _ _).mpr ⟨bytes,[],by simpa using cut.symm,length,encodes⟩).symm
      | cons next excess =>
        have goesOn : isContinuation next = true := encodes.continues next (by simp [cut])
        have stops : isContinuation next = false := stop next (by simp [tail])
        simp [goesOn] at stops
    · exact ((head?_eq_some _ _ _).mpr ⟨bytes,excess,cut,length,encodes⟩).symm

theorem glyphsFrom_eq_drop (skip : Nat) (text : Bytes) : glyphsFrom skip text = glyphs (text.drop skip) := by
  induction text generalizing skip with
  | nil => cases skip <;> rfl
  | cons b text ih =>
    cases skip with
    | zero => rfl
    | succ skip => exact ih skip

end Utf8

open Utf8

@[simp] theorem glyphs_nil : glyphs [] = [] := rfl

theorem glyphs_encoded (bytes rest : Bytes) (x : Char) (encodes : Encodes bytes x) :
    glyphs (bytes ++ rest) = ⟨bytes,some x⟩ :: glyphs rest := by
  cases bytes with
  | nil => exact absurd rfl encodes.ne_nil
  | cons b bytes =>
    have found : head? (b :: (bytes ++ rest)) = some (bytes.length + 1,x) :=
      (head?_eq_some _ _ _).mpr ⟨b :: bytes,rest,rfl,rfl,encodes⟩
    simp [glyphs,glyphsFrom,found,glyphsFrom_eq_drop bytes.length]

theorem glyphs_stray (b : UInt8) (rest : Bytes) (missing : head? (b :: rest) = none) :
    glyphs (b :: rest) = Glyph.stray b :: glyphs rest := by
  simp [glyphs,glyphsFrom,missing]

/-- A text is empty, or it begins with a code point, or with a byte that encodes nothing. -/
theorem text_induction {motive : Bytes → Prop} (nil : motive [])
    (encoded : ∀ bytes rest x, Encodes bytes x → motive rest → motive (bytes ++ rest))
    (stray : ∀ b rest, head? (b :: rest) = none → motive rest → motive (b :: rest)) (text : Bytes) : motive text := by
  induction size : text.length using Nat.strongRecOn generalizing text with
  | ind size ih =>
    subst size
    cases text with
    | nil => exact nil
    | cons b text =>
      cases found : head? (b :: text) with
      | none => exact stray b text found (ih text.length (by simp) text rfl)
      | some first =>
        obtain ⟨bytes,rest,split,_,encodes⟩ := (head?_eq_some _ _ _).mp found
        have shorter : rest.length < (b :: text).length := by
          have some := List.length_pos_iff.mpr encodes.ne_nil
          rw [split,List.length_append]
          omega
        rw [split]
        exact encoded bytes rest _ encodes (ih rest.length shorter rest rfl)

@[simp] theorem spell_nil : spell [] = [] := rfl

@[simp] theorem spell_cons (g : Glyph) (row : List Glyph) : spell (g :: row) = g.bytes ++ spell row := rfl

@[simp] theorem spell_append (left right : List Glyph) : spell (left ++ right) = spell left ++ spell right :=
  List.flatMap_append

@[simp] theorem spell_glyphs (text : Bytes) : spell (glyphs text) = text := by
  induction text using text_induction with
  | nil => rfl
  | encoded bytes rest x encodes ih => rw [glyphs_encoded _ _ _ encodes,spell_cons,ih]
  | stray b rest missing ih => rw [glyphs_stray _ _ missing,spell_cons,ih]; rfl

theorem glyphs_ne_nil (text : Bytes) (some : text ≠ []) : glyphs text ≠ [] := by
  intro none
  have spelled := spell_glyphs text
  rw [none] at spelled
  exact some spelled.symm

theorem spell_within (text : Bytes) (piece : List Glyph) (inside : piece <:+: glyphs text) : spell piece <:+: text := by
  obtain ⟨left,right,whole⟩ := inside
  exact ⟨spell left,spell right,by rw [← spell_append,← spell_append,whole,spell_glyphs]⟩

theorem glyphs_append (left right : Bytes) (stop : ∀ next ∈ right.head?, isContinuation next = false) :
    glyphs (left ++ right) = glyphs left ++ glyphs right := by
  induction left using text_induction with
  | nil => rfl
  | encoded bytes rest x encodes ih =>
    rw [List.append_assoc,glyphs_encoded _ _ _ encodes,glyphs_encoded _ _ _ encodes,ih,List.cons_append]
  | stray b rest missing ih =>
    have still : head? (b :: (rest ++ right)) = none := (head?_append_of_stop b rest right stop).trans missing
    rw [List.cons_append,glyphs_stray _ _ still,glyphs_stray _ _ missing,ih,List.cons_append]

theorem glyphs_spell_right (left right : List Glyph) (text : Bytes) (read : glyphs text = left ++ right) :
    glyphs (spell right) = right := by
  induction left generalizing text with
  | nil => rw [← List.nil_append right,← read,spell_glyphs]
  | cons g left ih =>
    induction text using text_induction with
    | nil => simp at read
    | encoded bytes rest x encodes _ =>
      rw [glyphs_encoded _ _ _ encodes] at read
      exact ih rest (List.cons.inj read).2
    | stray b rest missing _ =>
      rw [glyphs_stray _ _ missing] at read
      exact ih rest (List.cons.inj read).2

theorem glyphs_spell_left (left right : List Glyph) (text : Bytes) (read : glyphs text = left ++ right) :
    glyphs (spell left) = left := by
  induction left generalizing text with
  | nil => rfl
  | cons g left ih =>
    induction text using text_induction with
    | nil => simp at read
    | encoded bytes rest x encodes _ =>
      rw [glyphs_encoded _ _ _ encodes] at read
      obtain ⟨rfl,later⟩ := List.cons.inj read
      rw [spell_cons,glyphs_encoded _ _ _ encodes,ih rest later]
    | stray b rest missing _ =>
      rw [glyphs_stray _ _ missing] at read
      obtain ⟨rfl,later⟩ := List.cons.inj read
      -- What the longer text does not encode a shorter one does not either.
      have still : head? (b :: spell left) = none := by
        cases found : head? (b :: spell left) with
        | none => rfl
        | some first =>
          have whole : rest = spell left ++ spell right := by
            rw [← spell_append,← spell_glyphs rest]
            exact congrArg spell later
          have longer := head?_append _ (spell right) _ _ found
          rw [List.cons_append,← whole,missing] at longer
          exact longer.symm
      change glyphs (b :: spell left) = _
      rw [glyphs_stray _ _ still,ih rest later]

/-- Every piece of a row of glyphs reads as that piece. -/
theorem glyphs_spell_piece (left piece right : List Glyph) (text : Bytes)
    (read : glyphs text = left ++ piece ++ right) : glyphs (spell piece) = piece :=
  glyphs_spell_right left piece _ (glyphs_spell_left (left ++ piece) right text read)

namespace Glyph

/-- The glyph of an ASCII byte. -/
def ascii (b : UInt8) : Glyph := ⟨[b],some (Char.ofNat b.toNat)⟩

end Glyph

theorem glyphs_ascii (b : UInt8) (rest : Bytes) (small : b < 0x80) : glyphs (b :: rest) = Glyph.ascii b :: glyphs rest :=
  glyphs_encoded [b] rest _ (.single b _ (by simp [single?,small]))

theorem isContinuation_ascii (b : UInt8) (small : b < 0x80) : isContinuation b = false := by
  have below : ¬(0x80 ≤ b) := UInt8.not_le.mpr small
  simp [isContinuation,below]

theorem glyphs_append_ascii (left : Bytes) (b : UInt8) (right : Bytes) (small : b < 0x80) :
    glyphs (left ++ b :: right) = glyphs left ++ Glyph.ascii b :: glyphs right := by
  have stop : ∀ next ∈ (b :: right).head?, isContinuation next = false := by
    intro next first
    simp only [List.head?_cons,Option.mem_some_iff] at first
    exact first ▸ isContinuation_ascii b small
  rw [glyphs_append left _ stop,glyphs_ascii b right small]

theorem glyphs_ascii_append (left right : Bytes) (small : ∀ b ∈ left, b < 0x80) :
    glyphs (left ++ right) = left.map Glyph.ascii ++ glyphs right := by
  induction left with
  | nil => rfl
  | cons b left ih =>
    obtain ⟨first,rest⟩ := List.forall_mem_cons.mp small
    rw [List.cons_append,glyphs_ascii b _ first,ih rest,List.map_cons,List.cons_append]

theorem glyphs_of_ascii (text : Bytes) (small : ∀ b ∈ text, b < 0x80) : glyphs text = text.map Glyph.ascii := by
  have whole := glyphs_ascii_append text [] small
  rwa [List.append_nil,glyphs_nil,List.append_nil] at whole

/-- An ASCII byte is a glyph of its own wherever it stands. -/
theorem ascii_mem_glyphs (text : Bytes) (b : UInt8) (member : b ∈ text) (small : b < 0x80) :
    Glyph.ascii b ∈ glyphs text := by
  obtain ⟨left,right,rfl⟩ := List.append_of_mem member
  rw [glyphs_append_ascii left b right small]
  simp

/-- A glyph of a text is an ASCII byte of it, or it has other bytes alone and no ASCII code point. -/
theorem mem_glyphs (text : Bytes) (g : Glyph) (member : g ∈ glyphs text) :
    (∃ b ∈ text, b < 0x80 ∧ g = Glyph.ascii b) ∨
      (g.bytes ≠ [] ∧ (∀ b ∈ g.bytes, 0x80 ≤ b.toNat) ∧ ∀ x, g.char? = some x → 0x80 ≤ x.toNat) := by
  induction text using text_induction with
  | nil => simp at member
  | encoded bytes rest y encodes ih =>
    rw [glyphs_encoded _ _ _ encodes] at member
    rcases List.mem_cons.mp member with rfl | later
    · rcases encodes.ascii_or_large with ⟨b,small,rfl,rfl⟩ | ⟨large,code⟩
      · exact .inl ⟨b,by simp,small,rfl⟩
      · exact .inr ⟨encodes.ne_nil,large,fun x read => Option.some.inj read ▸ code⟩
    · exact (ih later).imp_left fun ⟨b,inside,rest⟩ => ⟨b,List.mem_append_right _ inside,rest⟩
  | stray b rest missing ih =>
    rw [glyphs_stray _ _ missing] at member
    rcases List.mem_cons.mp member with rfl | later
    · right
      refine ⟨by simp [Glyph.stray],?_,by simp [Glyph.stray]⟩
      have large : ¬b < 0x80 := by
        intro small
        simp [head?,single?,small] at missing
      simpa [Glyph.stray,UInt8.lt_iff_toNat_lt] using large
    · exact (ih later).imp_left fun ⟨c,inside,rest⟩ => ⟨c,List.mem_cons_of_mem b inside,rest⟩

theorem glyph_of_small (text : Bytes) (g : Glyph) (member : g ∈ glyphs text) (x : Char) (read : g.char? = some x)
    (small : x.toNat < 0x80) : ∃ b ∈ text, b < 0x80 ∧ g = Glyph.ascii b := by
  rcases mem_glyphs text g member with ascii | ⟨_,_,large⟩
  · exact ascii
  · have code := large x read
    omega

theorem glyph_of_char (text : Bytes) (g : Glyph) (member : g ∈ glyphs text) (x : Char) (read : g.char? = some x)
    (small : x.toNat < 0x80) : g = Glyph.ascii (UInt8.ofNat x.toNat) := by
  obtain ⟨b,_,below,rfl⟩ := glyph_of_small text g member x read small
  obtain rfl : Char.ofNat b.toNat = x := Option.some.inj read
  have code : (Char.ofNat b.toNat).toNat = b.toNat := by
    refine toNat_ofNat _ (.inl ?_)
    have bound := b.toNat_lt
    omega
  rw [code,UInt8.ofNat_toNat]

theorem glyph_of_byte (text : Bytes) (g : Glyph) (member : g ∈ glyphs text) (b : UInt8) (inside : b ∈ g.bytes)
    (small : b < 0x80) : g = Glyph.ascii b := by
  rcases mem_glyphs text g member with ⟨c,_,_,rfl⟩ | ⟨_,large,_⟩
  · rw [List.mem_singleton.mp inside]
  · have least := large b inside
    have most := UInt8.lt_iff_toNat_lt.mp small
    change b.toNat < 128 at most
    omega

theorem bytes_of_char (text : Bytes) (g : Glyph) (member : g ∈ glyphs text) (x : Char) (small : x.toNat < 0x80)
    (same : g.is (· == x) = true) : g.bytes = [UInt8.ofNat x.toNat] := by
  obtain ⟨y,read,rfl⟩ : ∃ y, g.char? = some y ∧ y = x := by simpa [Glyph.is,Option.any_eq_true] using same
  rw [glyph_of_char text g member y read small]
  rfl

/-! Searching a text. -/

theorem has_iff (sought text : Bytes) : Bytes.has sought text = true ↔ sought <:+: text := by
  induction text with
  | nil => cases sought <;> simp [Bytes.has,Bytes.find?]
  | cons b text ih =>
    rw [List.infix_cons_iff,← ih,← List.isPrefixOf_iff_prefix,Bytes.has,Bytes.find?]
    split
    next start => simp [start]
    next apart => simp [apart,Bytes.has]

end SqlTidy
