import SqlTidy.Proofs.Sql.Words
import SqlTidy.RequestId

/-! Identifiers that are accepted and then echoed. They are the four spellings of a UUID, and
no byte of them is white space. One of the spellings has any two bytes around the UUID, so that
an accepted identifier may begin and end with bytes that no UUID has. -/
namespace SqlTidy
open Ascii

theorem isSpace_iff (b : UInt8) : isSpace b = true ↔ b.toNat = 32 ∨ 9 ≤ b.toNat ∧ b.toNat ≤ 13 := by
  simp only [isSpace,Bool.or_eq_true,Bool.and_eq_true,decide_eq_true_eq,beq_iff_eq,UInt8.le_iff_toNat_le,
    ← UInt8.toNat_inj]
  rfl

theorem Glyph.isBlank_ascii (b : UInt8) (small : b < 0x80) : (Glyph.ascii b).isBlank = isSpace b := by
  have below : b.toNat < 0x80 := UInt8.lt_iff_toNat_lt.mp small
  have code : (Char.ofNat b.toNat).toNat = b.toNat := Utf8.toNat_ofNat _ (.inl (by omega))
  rw [Bool.eq_iff_iff,isSpace_iff]
  simp only [Glyph.isBlank,Glyph.is,Glyph.ascii,Option.any_some,SqlTidy.isBlank,code,Bool.or_eq_true,
    Bool.and_eq_true,decide_eq_true_eq,beq_iff_eq]
  omega

theorem glyphs_byte (b : UInt8) : ∃ g, glyphs [b] = [g] ∧ g.isBlank = isSpace b := by
  by_cases small : b < 0x80
  · exact ⟨Glyph.ascii b,glyphs_ascii b [] small,Glyph.isBlank_ascii b small⟩
  · have missing : Utf8.head? [b] = none := by simp [Utf8.head?,Utf8.single?,small]
    have large : 0x80 ≤ b.toNat := UInt8.le_iff_toNat_le.mp (UInt8.not_lt.mp small)
    have solid : isSpace b = false := by
      rw [Bool.eq_false_iff,ne_eq,isSpace_iff]
      omega
    exact ⟨Glyph.stray b,glyphs_stray b [] missing,solid.symm⟩

namespace RequestId

theorem isValid_trim (id : Bytes) : isValid (trim id) = isValid id := by
  rw [isValid,trim_trim]
  rfl

structure Digits (count : Nat) where
  text : Bytes
  length_eq : text.length = count
  hex : ∀ b ∈ text, isHex b = true

/-- A UUID, by its groups of digits. -/
structure Uuid where
  low : Digits 8
  middle : Digits 4
  high : Digits 4
  clock : Digits 4
  node : Digits 12

namespace Uuid

def hyphenated (uuid : Uuid) : Bytes :=
  uuid.low.text ++ dash :: (uuid.middle.text ++ dash :: (uuid.high.text ++ dash :: (uuid.clock.text ++
    dash :: uuid.node.text)))

def compact (uuid : Uuid) : Bytes :=
  uuid.low.text ++ (uuid.middle.text ++ (uuid.high.text ++ (uuid.clock.text ++ uuid.node.text)))

end Uuid

/-- The spellings of a UUID. -/
inductive Spells (uuid : Uuid) : Bytes → Prop
  | hyphenated : Spells uuid uuid.hyphenated
  | named (lead : Bytes) (urn : sameFold lead (utf8 "urn:uuid:") = true) : Spells uuid (lead ++ uuid.hyphenated)
  | wrapped (first last : UInt8) : Spells uuid (first :: uuid.hyphenated ++ [last])
  | compact : Spells uuid uuid.compact

section Reading

theorem isHyphenated_append (place : Nat) (left right : Bytes) :
    isHyphenated place (left ++ right) = (isHyphenated place left && isHyphenated (place + left.length) right) := by
  induction left generalizing place with
  | nil => simp [isHyphenated]
  | cons b left ih =>
    rw [List.cons_append,isHyphenated,isHyphenated,ih,List.length_cons,Bool.and_assoc,Nat.add_assoc,
      Nat.add_comm 1]

theorem isHyphenated_free (place : Nat) (text : Bytes)
    (free : ∀ i, i < text.length → isHyphenPlace (place + i) = false) :
    isHyphenated place text = text.all isHex := by
  induction text generalizing place with
  | nil => rfl
  | cons b text ih =>
    have here : isHyphenPlace place = false := free 0 (Nat.succ_pos _)
    have later : ∀ i, i < text.length → isHyphenPlace (place + 1 + i) = false := by
      intro i inside
      rw [Nat.add_assoc,Nat.add_comm 1]
      exact free (i + 1) (Nat.succ_lt_succ inside)
    rw [isHyphenated,here,ih (place + 1) later]
    rfl

theorem isHyphenated_mark (place : Nat) (text : Bytes) (mark : isHyphenPlace place = true) :
    isHyphenated place (dash :: text) = isHyphenated (place + 1) text := by
  simp [isHyphenated,mark]

/-- A group of digits and the hyphen behind it. -/
theorem group_cut (place count : Nat) (text : Bytes) (enough : count < text.length)
    (free : ∀ i, i < count → isHyphenPlace (place + i) = false) (mark : isHyphenPlace (place + count) = true)
    (read : isHyphenated place text = true) :
    ∃ (digits : Digits count) (rest : Bytes), text = digits.text ++ dash :: rest ∧
      text.length = count + 1 + rest.length ∧ isHyphenated (place + count + 1) rest = true := by
  have length : (text.take count).length = count := List.length_take_of_le enough.le
  obtain ⟨b,rest,dropped⟩ := List.exists_cons_of_ne_nil
    (l := text.drop count) (by simpa [List.drop_eq_nil_iff] using enough)
  have whole : text = text.take count ++ b :: rest := by rw [← dropped,List.take_append_drop]
  rw [whole,isHyphenated_append,isHyphenated_free place _ (length.symm ▸ free),length,isHyphenated,if_pos mark,
    Bool.and_eq_true,Bool.and_eq_true,beq_iff_eq,List.all_eq_true] at read
  obtain ⟨hex,rfl,later⟩ := read
  refine ⟨⟨text.take count,length,hex⟩,rest,whole,?_,later⟩
  have sizes := congrArg List.length whole
  rw [List.length_append,length,List.length_cons] at sizes
  omega

theorem exists_hyphenated (text : Bytes) (size : text.length = 36) (read : isHyphenated 0 text = true) :
    ∃ uuid : Uuid, text = uuid.hyphenated := by
  obtain ⟨low,text₁,rfl,size₁,read₁⟩ := group_cut 0 8 text (by omega) (by decide) (by decide) read
  obtain ⟨middle,text₂,rfl,size₂,read₂⟩ := group_cut 9 4 text₁ (by omega) (by decide) (by decide) read₁
  obtain ⟨high,text₃,rfl,size₃,read₃⟩ := group_cut 14 4 text₂ (by omega) (by decide) (by decide) read₂
  obtain ⟨clock,text₄,rfl,size₄,read₄⟩ := group_cut 19 4 text₃ (by omega) (by decide) (by decide) read₃
  have last : text₄.length = 12 := by omega
  have free : ∀ i, i < 12 → isHyphenPlace (24 + i) = false := by decide
  rw [isHyphenated_free 24 text₄ (last.symm ▸ free),List.all_eq_true] at read₄
  exact ⟨⟨low,middle,high,clock,⟨text₄,last,read₄⟩⟩,rfl⟩

theorem isHyphenated_hyphenated (uuid : Uuid) : isHyphenated 0 uuid.hyphenated = true := by
  have group (place count : Nat) (digits : Digits count) (free : ∀ i, i < count → isHyphenPlace (place + i) = false)
      (rest : Bytes) : isHyphenated place (digits.text ++ rest) = isHyphenated (place + count) rest := by
    have hex : digits.text.all isHex = true := List.all_eq_true.mpr digits.hex
    rw [isHyphenated_append,isHyphenated_free place digits.text (digits.length_eq.symm ▸ free),hex,digits.length_eq,
      Bool.true_and]
  have last := group 24 12 uuid.node (by decide) []
  rw [List.append_nil] at last
  rw [Uuid.hyphenated,group 0 8 _ (by decide),isHyphenated_mark _ _ (by decide),
    group 9 4 _ (by decide),isHyphenated_mark _ _ (by decide),
    group 14 4 _ (by decide),isHyphenated_mark _ _ (by decide),
    group 19 4 _ (by decide),isHyphenated_mark _ _ (by decide)]
  exact last

theorem length_hyphenated (uuid : Uuid) : uuid.hyphenated.length = 36 := by
  simp [Uuid.hyphenated,Digits.length_eq]

theorem length_compact (uuid : Uuid) : uuid.compact.length = 32 := by
  simp [Uuid.compact,Digits.length_eq]

theorem hex_of_compact (uuid : Uuid) : ∀ b ∈ uuid.compact, isHex b = true := by
  simp only [Uuid.compact,List.mem_append]
  rintro b (inside | inside | inside | inside | inside)
  · exact uuid.low.hex b inside
  · exact uuid.middle.hex b inside
  · exact uuid.high.hex b inside
  · exact uuid.clock.hex b inside
  · exact uuid.node.hex b inside

theorem exists_compact (text : Bytes) (size : text.length = 32) (hex : ∀ b ∈ text, isHex b = true) :
    ∃ uuid : Uuid, text = uuid.compact := by
  have cut (count : Nat) (rest : Bytes) (enough : count ≤ rest.length) (hex : ∀ b ∈ rest, isHex b = true) :
      ∃ (digits : Digits count) (later : Bytes), rest = digits.text ++ later ∧
        later.length = rest.length - count ∧ ∀ b ∈ later, isHex b = true :=
    ⟨⟨rest.take count,List.length_take_of_le enough,fun b inside => hex b (List.mem_of_mem_take inside)⟩,
      rest.drop count,(List.take_append_drop count rest).symm,List.length_drop,
      fun b inside => hex b (List.mem_of_mem_drop inside)⟩
  obtain ⟨low,text₁,rfl,size₁,hex₁⟩ := cut 8 text (by omega) hex
  obtain ⟨middle,text₂,rfl,size₂,hex₂⟩ := cut 4 text₁ (by omega) hex₁
  obtain ⟨high,text₃,rfl,size₃,hex₃⟩ := cut 4 text₂ (by omega) hex₂
  obtain ⟨clock,text₄,rfl,size₄,hex₄⟩ := cut 4 text₃ (by omega) hex₃
  exact ⟨⟨low,middle,high,clock,⟨text₄,by omega,hex₄⟩⟩,rfl⟩

theorem length_of_urn (lead : Bytes) (urn : sameFold lead (utf8 "urn:uuid:") = true) : lead.length = 9 := by
  have lengths := congrArg List.length (beq_iff_eq.mp urn)
  rw [List.length_map,List.length_map] at lengths
  exact lengths.trans (by decide)

theorem exists_named (text : Bytes) (size : text.length = 45)
    (accepted : (startsWithFold (utf8 "urn:uuid:") text && isHyphenated 0 (text.drop 9)) = true) :
    ∃ uuid, Spells uuid text := by
  rw [Bool.and_eq_true,startsWithFold,Bool.and_eq_true] at accepted
  have rest : (text.drop 9).length = 36 := by rw [List.length_drop,size]
  obtain ⟨uuid,spelled⟩ := exists_hyphenated (text.drop 9) rest accepted.2
  refine ⟨uuid,?_⟩
  rw [← List.take_append_drop 9 text,spelled]
  exact .named _ (beq_iff_eq.mpr (beq_iff_eq.mp accepted.1.2).symm)

theorem exists_wrapped (text : Bytes) (size : text.length = 38)
    (accepted : isHyphenated 0 ((text.drop 1).take 36) = true) : ∃ uuid, Spells uuid text := by
  obtain ⟨first,rest,rfl⟩ := List.exists_cons_of_ne_nil (l := text) (by rintro rfl; simp at size)
  rw [List.length_cons] at size
  obtain ⟨inner,last,rfl⟩ := (List.eq_nil_or_concat rest).resolve_left (by rintro rfl; simp at size)
  rw [List.concat_eq_append] at accepted size ⊢
  rw [List.length_append,List.length_singleton] at size
  rw [List.drop_one,List.tail_cons,List.take_left' (by omega)] at accepted
  obtain ⟨uuid,rfl⟩ := exists_hyphenated inner (by omega) accepted
  exact ⟨uuid,.wrapped first last⟩

/-- The spellings have different lengths, by which they are told apart. -/
theorem isUuid_iff (text : Bytes) : isUuid text = true ↔ ∃ uuid, Spells uuid text := by
  constructor
  · intro accepted
    simp only [isUuid,beq_iff_eq] at accepted
    split_ifs at accepted with hyphenated named wrapped compact
    · obtain ⟨uuid,rfl⟩ := exists_hyphenated text hyphenated accepted
      exact ⟨uuid,.hyphenated⟩
    · exact exists_named text named accepted
    · exact exists_wrapped text wrapped accepted
    · obtain ⟨uuid,rfl⟩ := exists_compact text compact (List.all_eq_true.mp accepted)
      exact ⟨uuid,.compact⟩
  · rintro ⟨uuid,spelled⟩
    have size := length_hyphenated uuid
    have read := isHyphenated_hyphenated uuid
    cases spelled with
    | hyphenated => simp [isUuid,size,read]
    | named lead urn =>
      have nine := length_of_urn lead urn
      have start : startsWithFold (utf8 "urn:uuid:") (lead ++ uuid.hyphenated) = true := by
        have names : (utf8 "urn:uuid:").length = 9 := by decide
        rw [startsWithFold,names,List.take_left' nine,List.length_append,nine,size,Bool.and_eq_true]
        exact ⟨by decide,beq_iff_eq.mpr (beq_iff_eq.mp urn).symm⟩
      simp [isUuid,size,nine,start,read,List.drop_left' nine]
    | wrapped first last => simp [isUuid,size,read,List.take_left' size]
    | compact => simpa [isUuid,length_compact uuid] using hex_of_compact uuid

theorem isValid_iff (id : Bytes) : isValid id = true ↔ ∃ uuid, Spells uuid (trim id) := by
  rw [isValid,Bool.and_eq_true,Bool.and_eq_true,isUuid_iff]
  refine ⟨And.right,fun ⟨uuid,spelled⟩ => ⟨?_,uuid,spelled⟩⟩
  have size := length_hyphenated uuid
  have sizes : 32 ≤ (trim id).length ∧ (trim id).length ≤ 45 := by
    generalize trim id = text at spelled ⊢
    cases spelled with
    | hyphenated => omega
    | named lead urn =>
      rw [List.length_append,length_of_urn lead urn]
      omega
    | wrapped first last =>
      rw [List.length_append,List.length_cons,List.length_singleton]
      omega
    | compact =>
      rw [length_compact]
      omega
  refine ⟨?_,decide_eq_true (Nat.le_trans sizes.2 (by decide))⟩
  cases text : trim id with
  | nil => simp [text] at sizes
  | cons b rest => rfl

end Reading

/-- Bytes that a UUID has, or that may stand around it. -/
def isEchoable (b : UInt8) : Bool := isHex b || b == dash || b == openBrace || b == closeBrace

/-- A text of such bytes alone, after a `urn:uuid:` if it begins with one. -/
def Echoable (text : Bytes) : Prop :=
  ∃ lead body, text = lead ++ body ∧ (lead = [] ∨ sameFold lead (utf8 "urn:uuid:") = true) ∧
    ∀ b ∈ body, isEchoable b = true

section Echoing

theorem isHex_iff (b : UInt8) : isHex b = true ↔
    48 ≤ b.toNat ∧ b.toNat ≤ 57 ∨ 97 ≤ b.toNat ∧ b.toNat ≤ 102 ∨ 65 ≤ b.toNat ∧ b.toNat ≤ 70 := by
  simp only [isHex,hexValue?,isDigit,Bool.and_eq_true,decide_eq_true_eq,UInt8.le_iff_toNat_le]
  change (if 48 ≤ b.toNat ∧ b.toNat ≤ 57 then some (b.toNat - 0x30)
    else if 97 ≤ b.toNat ∧ b.toNat ≤ 102 then some (b.toNat - 0x57)
    else if 65 ≤ b.toNat ∧ b.toNat ≤ 70 then some (b.toNat - 0x37) else none).isSome = true ↔ _
  split_ifs <;> simp <;> omega

theorem toNat_toLower (b : UInt8) :
    (toLower b).toNat = if 65 ≤ b.toNat ∧ b.toNat ≤ 90 then b.toNat + 32 else b.toNat := by
  simp only [toLower,isUpper,Bool.and_eq_true,decide_eq_true_eq,UInt8.le_iff_toNat_le]
  change (if 65 ≤ b.toNat ∧ b.toNat ≤ 90 then b + 0x20 else b).toNat = _
  split
  next upper =>
    rw [UInt8.toNat_add]
    change (b.toNat + 32) % 256 = _
    omega
  next => rfl

theorem mem_hyphenated (uuid : Uuid) : ∀ b ∈ uuid.hyphenated, isHex b = true ∨ b = dash := by
  simp only [Uuid.hyphenated,List.mem_append,List.mem_cons]
  rintro b (inside | rfl | inside | rfl | inside | rfl | inside | rfl | inside)
  · exact .inl (uuid.low.hex b inside)
  · exact .inr rfl
  · exact .inl (uuid.middle.hex b inside)
  · exact .inr rfl
  · exact .inl (uuid.high.hex b inside)
  · exact .inr rfl
  · exact .inl (uuid.clock.hex b inside)
  · exact .inr rfl
  · exact .inl (uuid.node.hex b inside)

theorem ascii_of_hyphenated (uuid : Uuid) : ∀ b ∈ uuid.hyphenated, b < 0x80 := by
  intro b inside
  rcases mem_hyphenated uuid b inside with hex | rfl
  · have bounds := (isHex_iff b).mp hex
    refine UInt8.lt_iff_toNat_lt.mpr ?_
    change b.toNat < 128
    omega
  · decide

theorem echoable_of_hyphenated (uuid : Uuid) : ∀ b ∈ uuid.hyphenated, isEchoable b = true := by
  intro b inside
  rcases mem_hyphenated uuid b inside with hex | rfl
  · simp [isEchoable,hex]
  · decide

theorem hyphenated_begins (uuid : Uuid) : ∃ b rest, uuid.hyphenated = b :: rest ∧ isHex b = true := by
  obtain ⟨b,rest,begins⟩ := List.exists_cons_of_ne_nil
    (l := uuid.low.text) (fun none => by simpa [none] using uuid.low.length_eq)
  have hex := uuid.low.hex b (by simp [begins])
  rw [Uuid.hyphenated,begins,List.cons_append]
  exact ⟨b,_,rfl,hex⟩

theorem forall_mem_wrapped (uuid : Uuid) (first last : UInt8) (p : UInt8 → Prop) :
    (∀ b ∈ first :: uuid.hyphenated ++ [last], p b) ↔ p first ∧ (∀ b ∈ uuid.hyphenated, p b) ∧ p last := by
  rw [List.cons_append,List.forall_mem_cons,List.forall_mem_append,List.forall_mem_singleton]

/-- Of a wrapped UUID the two bytes around it decide. -/
theorem echoable_wrapped (uuid : Uuid) (first last : UInt8) :
    Echoable (first :: uuid.hyphenated ++ [last]) ↔ isEchoable first = true ∧ isEchoable last = true := by
  constructor
  · rintro ⟨lead,body,split,rfl | urn,plain⟩
    · rw [List.nil_append] at split
      rw [← split,forall_mem_wrapped] at plain
      exact ⟨plain.1,plain.2.2⟩
    · -- The second byte of `urn:uuid:` is an r in either case, which is no hexadecimal digit.
      obtain ⟨b,rest,begins,hex⟩ := hyphenated_begins uuid
      match lead,length_of_urn lead urn with
      | u :: r :: lead,_ =>
        obtain rfl : b = r := by
          rw [begins] at split
          simp only [List.cons_append,List.cons.injEq] at split
          exact split.2.1
        have folded : toLower b = 0x72 := by
          have same := beq_iff_eq.mp urn
          simp only [List.map_cons] at same
          exact (List.cons.inj (List.cons.inj same).2).1
        have code := congrArg UInt8.toNat folded
        have bounds := (isHex_iff b).mp hex
        rw [toNat_toLower] at code
        change _ = 114 at code
        split at code <;> omega
  · rintro ⟨plainFirst,plainLast⟩
    refine ⟨[],first :: uuid.hyphenated ++ [last],rfl,.inl rfl,?_⟩
    rw [forall_mem_wrapped]
    exact ⟨plainFirst,echoable_of_hyphenated uuid,plainLast⟩

theorem glyphs_wrapped (uuid : Uuid) (first last : UInt8) :
    glyphs (first :: uuid.hyphenated ++ [last]) =
      glyphs [first] ++ (uuid.hyphenated.map Glyph.ascii ++ glyphs [last]) := by
  obtain ⟨b,rest,begins,hex⟩ := hyphenated_begins uuid
  have small : b < 0x80 := ascii_of_hyphenated uuid b (by simp [begins])
  have stop : ∀ next ∈ (uuid.hyphenated ++ [last]).head?, Utf8.isContinuation next = false := by
    intro next head
    rw [begins,List.cons_append,List.head?_cons,Option.mem_some_iff] at head
    exact head ▸ isContinuation_ascii b small
  rw [← glyphs_ascii_append _ _ (ascii_of_hyphenated uuid),← glyphs_append [first] _ stop]
  rfl

theorem trim_wrapped (uuid : Uuid) (first last : UInt8) (solidFirst : isSpace first = false)
    (solidLast : isSpace last = false) :
    trim (first :: uuid.hyphenated ++ [last]) = first :: uuid.hyphenated ++ [last] := by
  obtain ⟨g,one,blank⟩ := glyphs_byte first
  obtain ⟨h,other,blank'⟩ := glyphs_byte last
  apply trim_eq_self
  · intro glyph head
    rw [glyphs_wrapped,one,List.singleton_append,List.head?_cons,Option.mem_some_iff] at head
    rw [← head,blank,solidFirst]
  · intro glyph ends
    rw [glyphs_wrapped,other,← List.append_assoc,List.getLast?_concat,Option.mem_some_iff] at ends
    rw [← ends,blank',solidLast]

theorem solid_of_hex (b : UInt8) (hex : isHex b = true) : isSpace b = false := by
  have bounds := (isHex_iff b).mp hex
  rw [Bool.eq_false_iff,ne_eq,isSpace_iff]
  omega

theorem solid_of_hyphenated (uuid : Uuid) : ∀ b ∈ uuid.hyphenated, isSpace b = false := by
  intro b inside
  rcases mem_hyphenated uuid b inside with hex | rfl
  · exact solid_of_hex b hex
  · rfl

theorem solid_of_urn (lead : Bytes) (urn : sameFold lead (utf8 "urn:uuid:") = true) :
    ∀ b ∈ lead, isSpace b = false := by
  intro b inside
  have folded : toLower b ∈ (utf8 "urn:uuid:").map toLower := by
    rw [← beq_iff_eq.mp urn]
    exact List.mem_map_of_mem inside
  have letters : ∀ c ∈ (utf8 "urn:uuid:").map toLower, 58 ≤ c.toNat := by decide +kernel
  have code := letters _ folded
  rw [toNat_toLower] at code
  rw [Bool.eq_false_iff,ne_eq,isSpace_iff]
  split at code <;> omega

/-- Trimming has left no white space around a wrapped UUID. -/
theorem solid_of_wrapped (id : Bytes) (uuid : Uuid) (first last : UInt8)
    (same : trim id = first :: uuid.hyphenated ++ [last]) : isSpace first = false ∧ isSpace last = false := by
  obtain ⟨g,one,blank⟩ := glyphs_byte first
  obtain ⟨h,other,blank'⟩ := glyphs_byte last
  have row : trimRow (glyphs id) = g :: (uuid.hyphenated.map Glyph.ascii ++ [h]) := by
    rw [← glyphs_trim,same,glyphs_wrapped,one,other,List.singleton_append]
  have begins := trimmed_begins Glyph.isBlank (glyphs id)
  have ends := trimmed_ends Glyph.isBlank (glyphs id)
  change ∀ x ∈ (trimRow (glyphs id)).head?, x.isBlank = false at begins
  change ∀ x ∈ (trimRow (glyphs id)).getLast?, x.isBlank = false at ends
  rw [row] at begins ends
  refine ⟨blank ▸ begins g rfl,blank' ▸ ends h ?_⟩
  rw [← List.cons_append,List.getLast?_concat]
  rfl

theorem Spells.solid (id : Bytes) (uuid : Uuid) (spelled : Spells uuid (trim id)) :
    ∀ b ∈ trim id, isSpace b = false := by
  generalize same : trim id = text at spelled
  cases spelled with
  | hyphenated => exact solid_of_hyphenated uuid
  | named lead urn =>
    intro b inside
    rcases List.mem_append.mp inside with front | rest
    · exact solid_of_urn lead urn b front
    · exact solid_of_hyphenated uuid b rest
  | wrapped first last =>
    obtain ⟨solidFirst,solidLast⟩ := solid_of_wrapped id uuid first last same
    rw [forall_mem_wrapped]
    exact ⟨solidFirst,solid_of_hyphenated uuid,solidLast⟩
  | compact => exact fun b inside => solid_of_hex b (hex_of_compact uuid b inside)

theorem Spells.echoable (uuid : Uuid) (text : Bytes) (spelled : Spells uuid text)
    (ends : ∀ first last, text = first :: uuid.hyphenated ++ [last] →
      isEchoable first = true ∧ isEchoable last = true) :
    Echoable text := by
  cases spelled with
  | hyphenated => exact ⟨[],uuid.hyphenated,rfl,.inl rfl,echoable_of_hyphenated uuid⟩
  | named lead urn => exact ⟨lead,uuid.hyphenated,rfl,.inr urn,echoable_of_hyphenated uuid⟩
  | wrapped first last => exact (echoable_wrapped uuid first last).mpr (ends first last rfl)
  | compact =>
    refine ⟨[],uuid.compact,rfl,.inl rfl,fun b inside => ?_⟩
    simp [isEchoable,hex_of_compact uuid b inside]

end Echoing

/-- Accepted are exactly the spellings of a UUID, and none of their bytes is white space. They
are safe to echo except for the two bytes around a wrapped UUID, which may be any that are not
white space. -/
theorem accepted_echoable_iff (id : Bytes) :
    (isValid id = true ↔ ∃ uuid, Spells uuid (trim id)) ∧
    (isValid id = true → (∀ b ∈ trim id, isSpace b = false) ∧
      (Echoable (trim id) ↔ ∀ (uuid : Uuid) (first last : UInt8),
        trim id = first :: uuid.hyphenated ++ [last] → isEchoable first = true ∧ isEchoable last = true)) ∧
    ∀ (uuid : Uuid) (first last : UInt8), isSpace first = false → isSpace last = false →
      let wrapped := first :: uuid.hyphenated ++ [last]
      isValid wrapped = true ∧ trim wrapped = wrapped ∧
        (Echoable wrapped ↔ isEchoable first = true ∧ isEchoable last = true) := by
  refine ⟨isValid_iff id,fun valid => ?_,fun uuid first last solidFirst solidLast => ?_⟩
  · obtain ⟨uuid,spelled⟩ := (isValid_iff id).mp valid
    refine ⟨spelled.solid,fun echoable uuid first last same => ?_,fun ends => spelled.echoable _ _ (ends uuid)⟩
    rw [same] at echoable
    exact (echoable_wrapped uuid first last).mp echoable
  · have same := trim_wrapped uuid first last solidFirst solidLast
    refine ⟨(isValid_iff _).mpr ⟨uuid,?_⟩,same,echoable_wrapped uuid first last⟩
    rw [same]
    exact .wrapped first last

/-- Braces around a UUID, and white space around these. -/
theorem accepted_echoable_iff_braces :
    let id := utf8 " \x7b3f2b8c1e-9a4d-4e6f-8b7a-1c2d3e4f5a6b\x7d\n"
    isValid id = true ∧ (∀ b ∈ trim id, isSpace b = false) ∧ Echoable (trim id) := by
  intro id
  have valid : isValid id = true := by decide +kernel
  have head : (trim id).head? = some openBrace := by decide +kernel
  have last : (trim id).getLast? = some closeBrace := by decide +kernel
  obtain ⟨solid,echoable⟩ := (accepted_echoable_iff id).2.1 valid
  refine ⟨valid,solid,echoable.mpr fun uuid first final same => ?_⟩
  rw [same,List.cons_append,List.head?_cons] at head
  rw [same,List.getLast?_concat] at last
  rw [Option.some.inj head,Option.some.inj last]
  decide

/-- Angle brackets pass as well, and are echoed. -/
theorem accepts_angle_brackets :
    let id := utf8 "<3f2b8c1e-9a4d-4e6f-8b7a-1c2d3e4f5a6b>"
    isValid id = true ∧ ¬Echoable (trim id) := by
  intro id
  refine ⟨by decide +kernel,?_⟩
  have head : (trim id).head? = some less := by decide +kernel
  rintro ⟨lead,body,split,rfl | urn,plain⟩
  · rw [split,List.nil_append] at head
    exact absurd (plain less (List.mem_of_mem_head? head)) (by decide)
  · match lead,length_of_urn lead urn with
    | u :: lead,_ =>
      rw [split,List.cons_append,List.head?_cons] at head
      obtain rfl := Option.some.inj head
      exact absurd (List.cons.inj (beq_iff_eq.mp urn)).1 (by decide)

end RequestId
end SqlTidy
