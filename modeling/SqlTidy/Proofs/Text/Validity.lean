import SqlTidy.Proofs.Text.Glyphs

/-! Texts in which every byte belongs to a code point. Such a text may be cut next to any
ASCII byte, and its ASCII bytes may be left out or changed; what is cut elsewhere is still
a part of a valid text, and is valid again between two ASCII bytes. -/
namespace SqlTidy
open Utf8

@[simp] theorem isUtf8_nil : isUtf8 [] = true := rfl

theorem isUtf8_encoded (bytes rest : Bytes) (x : Char) (encodes : Encodes bytes x) :
    isUtf8 (bytes ++ rest) = isUtf8 rest := by
  simp [isUtf8,glyphs_encoded _ _ _ encodes]

theorem isUtf8_stray (b : UInt8) (rest : Bytes) (missing : head? (b :: rest) = none) :
    isUtf8 (b :: rest) = false := by
  simp [isUtf8,glyphs_stray _ _ missing,Glyph.stray]

/-- A valid text is empty, or a code point stands before a valid text. -/
theorem valid_induction {motive : (text : Bytes) → isUtf8 text = true → Prop} (nil : motive [] isUtf8_nil)
    (encoded : ∀ bytes rest x (encodes : Encodes bytes x) (valid : isUtf8 rest = true), motive rest valid →
      motive (bytes ++ rest) ((isUtf8_encoded bytes rest x encodes).trans valid))
    (text : Bytes) (valid : isUtf8 text = true) : motive text valid := by
  induction text using text_induction with
  | nil => exact nil
  | encoded bytes rest x encodes ih =>
    have later : isUtf8 rest = true := (isUtf8_encoded bytes rest x encodes).symm.trans valid
    exact encoded bytes rest x encodes later (ih later)
  | stray b rest missing _ => simp [isUtf8_stray _ _ missing] at valid

theorem isUtf8_append (left right : Bytes) (valid : isUtf8 left = true) :
    isUtf8 (left ++ right) = isUtf8 right := by
  induction left, valid using valid_induction with
  | nil => rfl
  | encoded bytes rest x encodes _ ih => rw [List.append_assoc,isUtf8_encoded _ _ _ encodes,ih]

theorem isUtf8_append_ascii (left : Bytes) (b : UInt8) (right : Bytes) (small : b < 0x80) :
    isUtf8 (left ++ b :: right) = (isUtf8 left && isUtf8 right) := by
  simp [isUtf8,glyphs_append_ascii left b right small,Glyph.ascii]

theorem isUtf8_cons_ascii (b : UInt8) (text : Bytes) (small : b < 0x80) : isUtf8 (b :: text) = isUtf8 text :=
  isUtf8_append_ascii [] b text small

theorem isUtf8_of_ascii (text : Bytes) (small : ∀ b ∈ text, b < 0x80) : isUtf8 text = true := by
  induction text with
  | nil => rfl
  | cons b text ih =>
    obtain ⟨first,rest⟩ := List.forall_mem_cons.mp small
    rw [isUtf8_cons_ascii b text first,ih rest]

theorem isUtf8_append_of_ascii (front text : Bytes) (small : ∀ b ∈ text, b < 0x80) :
    isUtf8 (front ++ text) = isUtf8 front := by
  cases text with
  | nil => rw [List.append_nil]
  | cons b text =>
    obtain ⟨first,rest⟩ := List.forall_mem_cons.mp small
    rw [isUtf8_append_ascii front b text first,isUtf8_of_ascii text rest,Bool.and_true]

theorem isUtf8_drop_ascii (text : Bytes) (size : Nat) (small : ∀ b ∈ text.take size, b < 0x80)
    (valid : isUtf8 text = true) : isUtf8 (text.drop size) = true := by
  rwa [← List.take_append_drop size text,isUtf8_append _ _ (isUtf8_of_ascii _ small)] at valid

/-- A code point has no other bytes than those of its shortest encoding. -/
theorem Utf8.Encodes.eq_utf8EncodeChar {bytes : Bytes} {x : Char} (encodes : Encodes bytes x) :
    bytes = String.utf8EncodeChar x := by
  have byte (b : UInt8) (n : Nat) (same : b.toNat = n) : UInt8.ofNat n = b := by rw [← same,UInt8.ofNat_toNat]
  have code (x : Char) : x.val.toNat = x.toNat := rfl
  unfold String.utf8EncodeChar
  cases encodes with
  | single b x one =>
    simp only [single?] at one
    split at one
    next small =>
      have bound := UInt8.lt_iff_toNat_lt.mp small
      change b.toNat < 128 at bound
      have number : x.toNat = b.toNat := by
        rw [← Option.some.inj one]
        exact toNat_ofNat _ (.inl (by omega))
      simp only [code,number]
      rw [if_pos (by omega),byte b _ rfl]
    next => simp at one
  | double b c x _ two =>
    obtain ⟨least,most,second,number⟩ := double?_eq_some b c x two
    have range := (isContinuation_iff c).mp second
    unfold payload at number
    simp only [code]
    generalize x.toNat = n at number ⊢
    have two : ¬n ≤ 127 ∧ n ≤ 2047 := by omega
    rw [if_neg two.1,if_pos two.2,byte b _ (by omega),byte c _ (by omega)]
  | triple b c d x _ _ three =>
    obtain ⟨least,most,second,third,large,number⟩ := triple?_eq_some b c d x three
    have secondRange := (isContinuation_iff c).mp second
    have thirdRange := (isContinuation_iff d).mp third
    unfold payload at number
    simp only [code]
    generalize x.toNat = n at large number ⊢
    have three : ¬n ≤ 127 ∧ ¬n ≤ 2047 ∧ n ≤ 65535 := by omega
    rw [if_neg three.1,if_neg three.2.1,if_pos three.2.2,byte b _ (by omega),byte c _ (by omega),byte d _ (by omega)]
  | quadruple b c d e x _ _ _ four =>
    obtain ⟨least,most,second,third,fourth,large,number⟩ := quadruple?_eq_some b c d e x four
    have secondRange := (isContinuation_iff c).mp second
    have thirdRange := (isContinuation_iff d).mp third
    have fourthRange := (isContinuation_iff e).mp fourth
    unfold payload at number
    simp only [code]
    generalize x.toNat = n at large number ⊢
    have four : ¬n ≤ 127 ∧ ¬n ≤ 2047 ∧ ¬n ≤ 65535 := by omega
    rw [if_neg four.1,if_neg four.2.1,if_neg four.2.2,byte b _ (by omega),byte c _ (by omega),
      byte d _ (by omega),byte e _ (by omega)]

/-! Rows of glyphs. -/

theorem isUtf8_spell (row : List Glyph) (sound : ∀ g ∈ row, ∃ x, Encodes g.bytes x) : isUtf8 (spell row) = true := by
  induction row with
  | nil => rfl
  | cons g row ih =>
    obtain ⟨⟨x,encodes⟩,rest⟩ := List.forall_mem_cons.mp sound
    rw [spell_cons,isUtf8_encoded _ _ x encodes,ih rest]

theorem encodes_of_valid (text : Bytes) (valid : isUtf8 text = true) (g : Glyph) (member : g ∈ glyphs text) :
    ∃ x, Encodes g.bytes x ∧ g.char? = some x := by
  induction text, valid using valid_induction with
  | nil => simp at member
  | encoded bytes rest x encodes _ ih =>
    rw [glyphs_encoded _ _ _ encodes] at member
    rcases List.mem_cons.mp member with rfl | later
    · exact ⟨x,encodes,rfl⟩
    · exact ih later

theorem isUtf8_spell_of_subset (text : Bytes) (valid : isUtf8 text = true) (row : List Glyph)
    (inside : row ⊆ glyphs text) : isUtf8 (spell row) = true := by
  apply isUtf8_spell
  intro g member
  obtain ⟨x,encodes,_⟩ := encodes_of_valid text valid g (inside member)
  exact ⟨x,encodes⟩

theorem glyphs_spell (row : List Glyph) (sound : ∀ g ∈ row, ∃ x, Encodes g.bytes x ∧ g.char? = some x) :
    glyphs (spell row) = row := by
  induction row with
  | nil => rfl
  | cons g row ih =>
    obtain ⟨⟨x,encodes,read⟩,rest⟩ := List.forall_mem_cons.mp sound
    rw [spell_cons,glyphs_encoded _ _ x encodes,ih rest,← read]

theorem isUtf8_of_subset (text part : Bytes) (valid : isUtf8 text = true) (inside : glyphs part ⊆ glyphs text) :
    isUtf8 part = true :=
  List.all_eq_true.mpr fun g member => List.all_eq_true.mp valid g (inside member)

theorem repair_eq_self (text : Bytes) (valid : isUtf8 text = true) : repair text = text := by
  induction text, valid using valid_induction with
  | nil => rfl
  | encoded bytes rest x encodes _ ih =>
    simp only [repair,glyphs_encoded _ _ _ encodes,List.flatMap_cons] at ih ⊢
    rw [ih]
    rfl

/-! Editing of ASCII bytes. -/

/-- The right text is the left one with some ASCII bytes left out or changed to others. -/
inductive AsciiEdit : Bytes → Bytes → Prop where
  | nil : AsciiEdit [] []
  | keep (b : UInt8) {left right : Bytes} (rest : AsciiEdit left right) : AsciiEdit (b :: left) (b :: right)
  | change (b c : UInt8) {left right : Bytes} (small : b < 0x80) (still : c < 0x80) (rest : AsciiEdit left right) :
      AsciiEdit (b :: left) (c :: right)
  | drop (b : UInt8) {left right : Bytes} (small : b < 0x80) (rest : AsciiEdit left right) :
      AsciiEdit (b :: left) right

namespace AsciiEdit

theorem keeps (bytes : Bytes) (large : ∀ b ∈ bytes, ¬b < 0x80) (left right : Bytes)
    (edit : AsciiEdit (bytes ++ left) right) : ∃ rest, right = bytes ++ rest ∧ AsciiEdit left rest := by
  induction bytes generalizing right with
  | nil => exact ⟨right,rfl,edit⟩
  | cons b bytes ih =>
    obtain ⟨first,others⟩ := List.forall_mem_cons.mp large
    rw [List.cons_append] at edit
    cases edit with
    | keep _ rest =>
      obtain ⟨kept,rfl,later⟩ := ih others _ rest
      exact ⟨kept,rfl,later⟩
    | change _ _ small => exact absurd small first
    | drop _ small => exact absurd small first

theorem valid (left right : Bytes) (edit : AsciiEdit left right) (valid : isUtf8 left = true) : isUtf8 right = true := by
  induction left, valid using valid_induction generalizing right with
  | nil =>
    cases edit
    rfl
  | encoded bytes rest x encodes _ ih =>
    rcases encodes.ascii_or_large with ⟨b,small,rfl,_⟩ | ⟨large,_⟩
    · cases edit with
      | keep _ later => rw [isUtf8_cons_ascii b _ small,ih _ later]
      | change _ c _ still later => rw [isUtf8_cons_ascii c _ still,ih _ later]
      | drop _ _ later => exact ih _ later
    · -- The bytes of a longer code point are not ASCII, so that all of them stay.
      have kept : ∀ b ∈ bytes, ¬b < 0x80 := by
        intro b member small
        have least := large b member
        have most := UInt8.lt_iff_toNat_lt.mp small
        change b.toNat < 128 at most
        omega
      obtain ⟨later,rfl,edited⟩ := keeps bytes kept rest right edit
      rw [isUtf8_encoded _ _ x encodes,ih _ edited]

end AsciiEdit

/-! Places next to an ASCII byte, at which no code point is torn. -/

def Seam (left right : Bytes) : Prop := (∃ b ∈ left.getLast?, b < 0x80) ∨ ∃ b ∈ right.head?, b < 0x80

theorem Seam.isUtf8 {left right : Bytes} (seam : Seam left right) :
    isUtf8 (left ++ right) = (isUtf8 left && isUtf8 right) := by
  rcases seam with ⟨b,last,small⟩ | ⟨b,first,small⟩
  · obtain ⟨front,rfl⟩ := List.getLast?_eq_some_iff.mp last
    rw [List.append_assoc,List.singleton_append,isUtf8_append_ascii front b right small,
      isUtf8_append_ascii front b [] small,isUtf8_nil,Bool.and_true]
  · obtain ⟨rest,rfl⟩ := List.head?_eq_some_iff.mp first
    rw [isUtf8_append_ascii left b rest small,isUtf8_cons_ascii b rest small]

theorem Seam.longer {left right : Bytes} (seam : Seam left right) (before after : Bytes) :
    Seam (before ++ left) (right ++ after) := by
  rcases seam with ⟨b,last,small⟩ | ⟨b,first,small⟩
  · obtain ⟨front,rfl⟩ := List.getLast?_eq_some_iff.mp last
    exact .inl ⟨b,by simp,small⟩
  · obtain ⟨rest,rfl⟩ := List.head?_eq_some_iff.mp first
    exact .inr ⟨b,by simp,small⟩

theorem Seam.cons {left right : Bytes} (b : UInt8) (seam : Seam left right) : Seam (b :: left) right := by
  have longer := seam.longer [b] []
  rwa [List.append_nil] at longer

theorem Seam.before (left : Bytes) {right : Bytes} (some : right ≠ []) (small : ∀ b ∈ right, b < 0x80) (rest : Bytes) :
    Seam left (right ++ rest) := by
  obtain ⟨b,right,rfl⟩ := List.exists_cons_of_ne_nil some
  exact .inr ⟨b,rfl,small b (by simp)⟩

theorem Seam.behind (front : Bytes) {left : Bytes} (some : left ≠ []) (small : ∀ b ∈ left, b < 0x80) (right : Bytes) :
    Seam (front ++ left) right := by
  refine .inl ⟨left.getLast some,?_,small _ (List.getLast_mem some)⟩
  simp [List.getLast?_append,List.getLast?_eq_some_getLast some]

theorem Seam.before_byte (left : Bytes) (b : UInt8) (small : b < 0x80) (right : Bytes) : Seam left (b :: right) :=
  .inr ⟨b,rfl,small⟩

theorem Seam.behind_byte (left : Bytes) (b : UInt8) (small : b < 0x80) (right : Bytes) : Seam (left ++ [b]) right :=
  .inl ⟨b,by simp,small⟩

namespace Utf8

def IsPart (text : Bytes) : Prop := ∃ before after, isUtf8 (before ++ text ++ after) = true

def IsStart (text : Bytes) : Prop := ∃ after, isUtf8 (text ++ after) = true

def IsEnd (text : Bytes) : Prop := ∃ before, isUtf8 (before ++ text) = true

theorem isStart_of_valid (text : Bytes) (valid : isUtf8 text = true) : IsStart text := ⟨[],by simpa using valid⟩

theorem IsStart.isPart {text : Bytes} (start : IsStart text) : IsPart text := by
  obtain ⟨after,valid⟩ := start
  exact ⟨[],after,valid⟩

theorem IsEnd.isPart {text : Bytes} (ends : IsEnd text) : IsPart text := by
  obtain ⟨before,valid⟩ := ends
  exact ⟨before,[],by simpa using valid⟩

theorem IsPart.within {text piece : Bytes} (part : IsPart text) (inside : piece <:+: text) : IsPart piece := by
  obtain ⟨before,after,valid⟩ := part
  obtain ⟨left,right,rfl⟩ := inside
  exact ⟨before ++ left,right ++ after,by simpa using valid⟩

theorem IsEnd.suffix {text piece : Bytes} (ends : IsEnd text) (inside : piece <:+ text) : IsEnd piece := by
  obtain ⟨before,valid⟩ := ends
  obtain ⟨left,rfl⟩ := inside
  exact ⟨before ++ left,by simpa using valid⟩

theorem IsEnd.append {left right : Bytes} (ends : IsEnd left) (valid : isUtf8 right = true) : IsEnd (left ++ right) := by
  obtain ⟨before,whole⟩ := ends
  exact ⟨before,by rw [← List.append_assoc,isUtf8_append _ _ whole,valid]⟩

theorem IsEnd.join {left right : Bytes} (ends : IsEnd left) (starts : IsStart right) : IsPart (left ++ right) := by
  obtain ⟨before,whole⟩ := ends
  obtain ⟨after,valid⟩ := starts
  exact ⟨before,after,by rw [List.append_assoc,List.append_assoc,← List.append_assoc before,isUtf8_append _ _ whole,valid]⟩

theorem IsStart.join {left right : Bytes} (valid : isUtf8 left = true) (starts : IsStart right) : IsStart (left ++ right) := by
  obtain ⟨after,whole⟩ := starts
  exact ⟨after,by rw [List.append_assoc,isUtf8_append _ _ valid,whole]⟩

theorem IsPart.cut {left right : Bytes} (part : IsPart (left ++ right)) (seam : Seam left right) :
    IsEnd left ∧ IsStart right := by
  obtain ⟨before,after,valid⟩ := part
  have split : before ++ (left ++ right) ++ after = before ++ left ++ (right ++ after) := by simp
  rw [split,(seam.longer before after).isUtf8,Bool.and_eq_true] at valid
  exact ⟨⟨before,valid.1⟩,⟨after,valid.2⟩⟩

theorem IsStart.cut {left right : Bytes} (starts : IsStart (left ++ right)) (seam : Seam left right) :
    isUtf8 left = true ∧ IsStart right := by
  obtain ⟨after,valid⟩ := starts
  have longer : Seam left (right ++ after) := seam.longer [] after
  rw [List.append_assoc,longer.isUtf8,Bool.and_eq_true] at valid
  exact ⟨valid.1,after,valid.2⟩

/-- What stands between two ASCII bytes is valid. -/
theorem IsPart.between {left middle right : Bytes} (part : IsPart (left ++ middle ++ right))
    (first : Seam left (middle ++ right)) (last : Seam middle right) : isUtf8 middle = true := by
  rw [List.append_assoc] at part
  exact ((part.cut first).2.cut last).1

theorem IsStart.drop_ascii {text : Bytes} (starts : IsStart text) (size : Nat) (small : ∀ b ∈ text.take size, b < 0x80) :
    IsStart (text.drop size) := by
  obtain ⟨after,valid⟩ := starts
  rw [← List.take_append_drop size text,List.append_assoc,isUtf8_append _ _ (isUtf8_of_ascii _ small)] at valid
  exact ⟨after,valid⟩

end Utf8
end SqlTidy
