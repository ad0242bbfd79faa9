import SqlTidy.Json.Write
import SqlTidy.Proofs.Json.Stream
import SqlTidy.Proofs.Text.Validity

/-! What is written is read back: a string of valid text in spite of its escapes, and an
object whose members are such strings and flags. -/
namespace SqlTidy.Json
open Ascii Reading Utf8

section Strings

theorem hexValue?_hexDigit (d : Nat) (small : d < 16) : hexValue? (hexDigit d) = some d := by
  revert d
  decide

theorem hex4?_hexDigits (n : Nat) (small : n < 65536) :
    hex4? (hexDigit (n / 4096 % 16)) (hexDigit (n / 256 % 16)) (hexDigit (n / 16 % 16)) (hexDigit (n % 16)) = some n := by
  have digit (m : Nat) := hexValue?_hexDigit (m % 16) (Nat.mod_lt _ (by decide))
  simp only [hex4?,digit,Option.bind_eq_bind,Option.bind_some]
  refine congrArg some ?_
  omega

/-- A spelling that is read as pieces which stand for the given bytes, whatever follows. -/
def Spells (spelling bytes : Bytes) : Prop :=
  ∃ pieces, (∀ rest, readPieces (spelling ++ rest) = (readPieces rest).map (pieces ++ ·)) ∧
    ∀ more, assembleAfter none (pieces ++ more) = bytes ++ assembleAfter none more

theorem spells_plain (bytes : Bytes) (plain : ∀ b ∈ bytes, b ≠ quote ∧ b ≠ backslash ∧ ¬b < 0x20) : Spells bytes bytes := by
  refine ⟨bytes.map .byte,?_,?_⟩
  · intro rest
    induction bytes with
    | nil =>
      rw [List.nil_append]
      cases readPieces rest <;> rfl
    | cons b bytes ih =>
      obtain ⟨⟨unquoted,unescaped,printable⟩,others⟩ := List.forall_mem_cons.mp plain
      rw [List.cons_append,readPieces_plain b _ unquoted unescaped,if_neg printable,ih others]
      cases readPieces rest <;> rfl
  · intro more
    clear plain
    induction bytes with
    | nil => rfl
    | cons b bytes ih => exact congrArg (b :: ·) ih

theorem spells_letter (e b : UInt8) (other : e ≠ 0x75) (letter : escaped? e = some b) : Spells [backslash,e] [b] := by
  refine ⟨[.byte b],?_,fun _ => rfl⟩
  intro rest
  rw [List.cons_append,List.cons_append,List.nil_append,readPieces_letter e rest other,letter]
  rfl

theorem spells_code (x : Char) (small : x.toNat < 65536) : Spells (unicodeEscape x.toNat) (String.utf8EncodeChar x) := by
  obtain ⟨high,low⟩ : isHighSurrogate x.toNat = false ∧ isLowSurrogate x.toNat = false := by
    have valid : x.toNat < 0xD800 ∨ 0xDFFF < x.toNat ∧ x.toNat < 0x110000 := x.valid
    simp only [isHighSurrogate,isLowSurrogate,Bool.and_eq_false_iff,decide_eq_false_iff_not]
    omega
  refine ⟨[.code x.toNat],?_,?_⟩
  · intro rest
    simp only [unicodeEscape,List.cons_append,List.nil_append,readPieces_code,hex4?_hexDigits _ small]
  · intro more
    simp [assembleAfter,encodeCode,high,low]

/-- A byte is escaped by a letter or by its number, or else it may stand as it is. -/
theorem escapeAscii_cases (b : UInt8) :
    (∃ e, escapeAscii b = [backslash,e] ∧ e ≠ 0x75 ∧ escaped? e = some b) ∨
      escapeAscii b = unicodeEscape b.toNat ∨
      escapeAscii b = [b] ∧ b ≠ quote ∧ b ≠ backslash ∧ ¬b < 0x20 := by
  by_cases lettered : b ∈ [quote,backslash,0x08,formFeed,newline,carriageReturn,tab]
  · left
    simp only [List.mem_cons,List.not_mem_nil,or_false] at lettered
    rcases lettered with rfl | rfl | rfl | rfl | rfl | rfl | rfl <;> exact ⟨_,rfl,by decide,by decide⟩
  · right
    simp only [List.mem_cons,List.not_mem_nil,or_false,not_or] at lettered
    by_cases coded : b < 0x20 || b == less || b == greater || b == ampersand
    · left
      simp [escapeAscii,lettered,coded]
    · right
      refine ⟨by simp [escapeAscii,lettered,coded],lettered.1,lettered.2.1,?_⟩
      intro control
      simp [control] at coded

theorem spells_ascii (b : UInt8) (small : b < 0x80) : Spells (escapeAscii b) [b] := by
  rcases escapeAscii_cases b with ⟨e,escaped,other,letter⟩ | escaped | ⟨escaped,plain⟩
  · rw [escaped]
    exact spells_letter e b other letter
  · have bound : b.toNat < 128 := UInt8.lt_iff_toNat_lt.mp small
    have encodes : Encodes [b] (Char.ofNat b.toNat) := .single b _ (by simp [single?,small])
    have number : (Char.ofNat b.toNat).toNat = b.toNat := toNat_ofNat _ (.inl (by omega))
    have spelled := spells_code (Char.ofNat b.toNat) (by omega)
    rwa [number,← encodes.eq_utf8EncodeChar,← escaped] at spelled
  · rw [escaped]
    exact spells_plain [b] (List.forall_mem_singleton.mpr plain)

theorem spells_glyph (g : Glyph) (x : Char) (encodes : Encodes g.bytes x) (read : g.char? = some x) :
    Spells (escapeGlyph g) g.bytes := by
  simp only [escapeGlyph,read]
  rcases encodes.ascii_or_large with ⟨b,small,single,rfl⟩ | ⟨large,code⟩
  · have bound := UInt8.lt_iff_toNat_lt.mp small
    change b.toNat < 128 at bound
    have number : (Char.ofNat b.toNat).toNat = b.toNat := toNat_ofNat _ (.inl (by omega))
    rw [number,if_pos bound,single,List.flatMap_singleton]
    exact spells_ascii b small
  · rw [if_neg (by omega)]
    split
    next separator =>
      -- The two separators are the only code points beyond ASCII that are escaped.
      simp only [Bool.or_eq_true,beq_iff_eq] at separator
      rw [encodes.eq_utf8EncodeChar]
      exact spells_code x (by omega)
    next =>
      apply spells_plain
      intro b member
      have least := large b member
      refine ⟨?_,?_,?_⟩
      · rintro rfl
        exact absurd least (by decide)
      · rintro rfl
        exact absurd least (by decide)
      · intro control
        have most := UInt8.lt_iff_toNat_lt.mp control
        change b.toNat < 32 at most
        omega

theorem readPieces_escaped (text : Bytes) (valid : isUtf8 text = true) (rest : Bytes) :
    ∃ pieces, readPieces ((glyphs text).flatMap escapeGlyph ++ quote :: rest) = .done pieces rest ∧
      assemble pieces = text := by
  induction text, valid using valid_induction with
  | nil => exact ⟨[],readPieces_quote rest,rfl⟩
  | encoded bytes later x encodes _ ih =>
    obtain ⟨pieces,read,assembled⟩ := ih
    obtain ⟨first,spelled,stands⟩ := spells_glyph ⟨bytes,some x⟩ x encodes rfl
    refine ⟨first ++ pieces,?_,?_⟩
    · rw [glyphs_encoded _ _ _ encodes,List.flatMap_cons,List.append_assoc,spelled,read]
      rfl
    · rw [assemble,stands pieces]
      exact congrArg (bytes ++ ·) assembled

/-- A string of valid text is read back from between its quotes. -/
theorem readString_written (text : Bytes) (valid : isUtf8 text = true) (rest : Bytes) :
    readString ((glyphs text).flatMap escapeGlyph ++ quote :: rest) = .done text rest := by
  obtain ⟨pieces,read,assembled⟩ := readPieces_escaped text valid rest
  rw [readString,read]
  simp only [Reading.map,assembled,repair_eq_self text valid]

end Strings

section Values

/-- Flags and strings of valid text. -/
def isLeaf : Json → Bool
  | .bool _ => true
  | .string text => isUtf8 text
  | _ => false

theorem skipSpace_solid (b : UInt8) (rest : Bytes) (solid : isSpace b = false) : skipSpace (b :: rest) = b :: rest := by
  simp [skipSpace,solid]

theorem writeString_append (text rest : Bytes) :
    writeString text ++ rest = quote :: ((glyphs text).flatMap escapeGlyph ++ quote :: rest) := by
  simp [writeString]

theorem readWord_written (value : Json) (word rest : Bytes) : readWord value word (word ++ rest) = .done value rest := by
  induction word with
  | nil => rfl
  | cons b word ih => simpa [readWord] using ih

theorem readValue_leaf (value : Json) (leaf : value.isLeaf = true) (fuel depth : Nat) (rest : Bytes) :
    readValue (fuel + 1) depth (value.write ++ rest) = .done value rest := by
  have solid (b : UInt8) (other : isSpace b = false) (more : Bytes) := skipSpace_solid b more other
  rw [readValue]
  cases value with
  | bool value =>
    cases value with
    | true => exact readWord_written _ (utf8 "rue") rest
    | false => exact readWord_written _ (utf8 "alse") rest
  | string text =>
    rw [write,writeString_append,solid quote (by decide)]
    simp only [beq_self_eq_true,if_true,readString_written text leaf]
    rfl
  | null | number | array | object => simp [isLeaf] at leaf

theorem readMembers_member (key : Bytes) (valid : isUtf8 key = true) (value : Json) (leaf : value.isLeaf = true)
    (fuel depth : Nat) (next : UInt8) (solid : isSpace next = false) (rest : Bytes) :
    readMembers (fuel + 2) depth (writeString key ++ colon :: (value.write ++ next :: rest)) =
      if next == comma then (readMembers (fuel + 1) depth rest).map ((key,value) :: ·)
      else if next == closeBrace then .done [(key,value)] rest
      else .malformed := by
  rw [readMembers,writeString_append,skipSpace_solid quote _ (by decide)]
  simp only [beq_self_eq_true,if_true,readString_written key valid,Reading.bind]
  rw [skipSpace_solid colon _ (by decide)]
  simp only [beq_self_eq_true,if_true,readValue_leaf value leaf,skipSpace_solid next rest solid]

theorem readMembers_written (members : List (Bytes × Json)) (some : members ≠ [])
    (sound : ∀ member ∈ members, isUtf8 member.1 = true ∧ member.2.isLeaf = true) (fuel depth : Nat)
    (enough : members.length < fuel) (rest : Bytes) :
    readMembers fuel depth (writeMembers members ++ closeBrace :: rest) = .done members rest := by
  induction members generalizing fuel with
  | nil => exact absurd rfl some
  | cons member members ih =>
    obtain ⟨key,value⟩ := member
    obtain ⟨⟨valid,leaf⟩,others⟩ := List.forall_mem_cons.mp sound
    obtain ⟨less,rfl⟩ : ∃ less, fuel = less + 2 := ⟨fuel - 2,by simp only [List.length_cons] at enough; omega⟩
    cases members with
    | nil =>
      rw [writeMembers,List.append_assoc,List.cons_append,
        readMembers_member key valid value leaf less depth closeBrace (by decide)]
      rfl
    | cons next members =>
      have later := ih (by simp) others (less + 1) (by simp only [List.length_cons] at enough ⊢; omega)
      have written : writeMembers ((key,value) :: next :: members) =
          writeString key ++ colon :: (value.write ++ comma :: writeMembers (next :: members)) := by
        rw [writeMembers,List.append_assoc,List.cons_append]
        simp
      rw [written,List.append_assoc,List.cons_append,List.append_assoc,List.cons_append,
        readMembers_member key valid value leaf less depth comma (by decide),later]
      rfl

theorem length_le_writeMembers (members : List (Bytes × Json)) : members.length ≤ (writeMembers members).length := by
  induction members with
  | nil => exact Nat.zero_le _
  | cons member members ih =>
    cases members with
    | nil => simp [writeMembers,writeString]
    | cons next members =>
      rw [writeMembers]
      · simp only [List.length_cons,List.length_append] at ih ⊢
        omega
      · simp

theorem writeMembers_quote (members : List (Bytes × Json)) (some : members ≠ []) :
    ∃ text, writeMembers members = quote :: text := by
  obtain ⟨⟨key,value⟩,members,rfl⟩ := List.exists_cons_of_ne_nil some
  cases members with
  | nil => exact ⟨_,by rw [writeMembers,writeString_append]⟩
  | cons next members => exact ⟨_,by rw [writeMembers,List.append_assoc,writeString_append]; simp⟩

theorem readValue_object (members : List (Bytes × Json))
    (sound : ∀ member ∈ members, isUtf8 member.1 = true ∧ member.2.isLeaf = true) (fuel depth : Nat)
    (shallow : depth < maxDepth) (enough : members.length < fuel) (rest : Bytes) :
    readValue (fuel + 1) depth ((object members).write ++ rest) = .done (.object members) rest := by
  have written : (object members).write ++ rest = openBrace :: (writeMembers members ++ closeBrace :: rest) := by
    simp [write]
  rw [readValue,written,skipSpace_solid openBrace _ (by decide)]
  simp only [show (openBrace == quote) = false from rfl,Bool.false_eq_true,if_false,beq_self_eq_true,if_true,
    if_neg (Nat.not_le.mpr shallow)]
  by_cases none : members = []
  · rw [none,writeMembers,List.nil_append,skipSpace_solid closeBrace _ (by decide)]
    rfl
  · have read := readMembers_written members none sound fuel (depth + 1) enough rest
    obtain ⟨text,quoted⟩ := writeMembers_quote members none
    rw [quoted,List.cons_append] at read ⊢
    rw [skipSpace_solid quote _ (by decide)]
    simp only [show (quote == closeBrace) = false from rfl,Bool.false_eq_true,if_false,read]
    rfl

/-- An object whose members are leaves is what its own text spells. -/
theorem read_written (members : List (Bytes × Json))
    (sound : ∀ member ∈ members, isUtf8 member.1 = true ∧ member.2.isLeaf = true) :
    read (object members).write = .done (.object members) [] := by
  have enough : members.length < 2 * (object members).write.length + 1 := by
    have length := length_le_writeMembers members
    simp only [write,List.length_append,List.length_cons]
    omega
  have found := readValue_object members sound _ 0 (by decide) enough []
  rwa [List.append_nil] at found

theorem ofText?_written (members : List (Bytes × Json))
    (sound : ∀ member ∈ members, isUtf8 member.1 = true ∧ member.2.isLeaf = true) :
    ofText? (object members).write = some (.object members) := by
  rw [ofText?,read_written members sound]
  rfl

end Values
end SqlTidy.Json
