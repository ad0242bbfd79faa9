import SqlTidy.Json.Read

/-! Reading a text of which more follows. A byte that no value allows stays where it is, and
a value stays as it was read if something followed it, or if its own last byte closed it.
Only a text that ended too soon can become anything. -/
namespace SqlTidy.Json
open Ascii

namespace Reading

variable {α β : Type}

/-- How the reading of a text agrees with the reading of the text with more behind it;
`closed` are the values that nothing can prolong. -/
def Kept (closed : α → Bool) (more : Bytes) (short long : Reading α) : Prop :=
  match short with
  | .done value rest => closed value = true ∨ rest ≠ [] → long = .done value (rest ++ more)
  | .malformed => long = .malformed
  | .incomplete => True

theorem Kept.mono {closed fewer : α → Bool} {more : Bytes} {short long : Reading α} (kept : Kept closed more short long)
    (less : ∀ value, fewer value = true → closed value = true) : Kept fewer more short long := by
  cases short with
  | done value rest => exact fun some => kept (some.imp_left (less value))
  | malformed => exact kept
  | incomplete => trivial

theorem Kept.map {closed : β → Bool} {more : Bytes} {short long : Reading α} (f : α → β)
    (kept : Kept (fun value => closed (f value)) more short long) : Kept closed more (short.map f) (long.map f) := by
  cases short with
  | done value rest =>
    intro some
    rw [kept some]
    rfl
  | malformed =>
    obtain rfl : long = .malformed := kept
    rfl
  | incomplete => trivial

/-- What is read after a value that something follows. At the end of the text what comes
next has nothing to say. -/
theorem Kept.bind {closed : α → Bool} {final : β → Bool} {more : Bytes} {short long : Reading α}
    {next other : α → Bytes → Reading β} (kept : Kept closed more short long)
    (later : ∀ value rest, rest ≠ [] → Kept final more (next value rest) (other value (rest ++ more)))
    (last : ∀ value reading, Kept final more (next value []) reading) :
    Kept final more (short.bind next) (long.bind other) := by
  cases short with
  | done value rest =>
    by_cases ends : rest = []
    · subst rest
      exact last value _
    · rw [kept (.inr ends)]
      exact later value rest ends
  | malformed =>
    obtain rfl : long = .malformed := kept
    rfl
  | incomplete => trivial

theorem kept_done {closed : α → Bool} (value : α) (rest more : Bytes) :
    Kept closed more (.done value rest) (.done value (rest ++ more)) := fun _ => rfl

theorem kept_if {closed : α → Bool} {more : Bytes} {yes no yes' no' : Reading α} (test : Prop) [Decidable test]
    (first : test → Kept closed more yes yes') (second : ¬test → Kept closed more no no') :
    Kept closed more (if test then yes else no) (if test then yes' else no') := by
  by_cases holds : test
  · rw [if_pos holds,if_pos holds]
    exact first holds
  · rw [if_neg holds,if_neg holds]
    exact second holds

end Reading

open Reading

theorem skipSpace_append (text more : Bytes) (b : UInt8) (rest : Bytes) (found : skipSpace text = b :: rest) :
    skipSpace (text ++ more) = b :: (rest ++ more) := by
  rw [skipSpace] at found ⊢
  rw [List.dropWhile_append,found]
  rfl

section Strings

theorem readPieces_quote (rest : Bytes) : readPieces (quote :: rest) = .done [] rest := by
  rw [readPieces.eq_def]
  rfl

theorem readPieces_code (h₁ h₂ h₃ h₄ : UInt8) (rest : Bytes) :
    readPieces (backslash :: 0x75 :: h₁ :: h₂ :: h₃ :: h₄ :: rest) =
      match hex4? h₁ h₂ h₃ h₄ with
      | some n => (readPieces rest).map (Piece.code n :: ·)
      | none => .malformed := by
  rw [readPieces.eq_def]
  rfl

theorem readPieces_short_code (short : Bytes) (few : short.length < 4) :
    readPieces (backslash :: 0x75 :: short) = if short.all isHex then .incomplete else .malformed := by
  rw [readPieces.eq_def]
  match short with
  | [] | [_] | [_,_] | [_,_,_] => rfl
  | _ :: _ :: _ :: _ :: _ => simp at few; omega

theorem readPieces_letter (e : UInt8) (rest : Bytes) (other : e ≠ 0x75) :
    readPieces (backslash :: e :: rest) =
      match escaped? e with
      | some x => (readPieces rest).map (Piece.byte x :: ·)
      | none => .malformed := by
  have test : (e == 0x75) = false := beq_eq_false_iff_ne.mpr other
  rw [readPieces.eq_def]
  simp only [test]
  rfl

theorem readPieces_plain (b : UInt8) (rest : Bytes) (unquoted : b ≠ quote) (unescaped : b ≠ backslash) :
    readPieces (b :: rest) = if b < 0x20 then .malformed else (readPieces rest).map (Piece.byte b :: ·) := by
  have first : (b == quote) = false := beq_eq_false_iff_ne.mpr unquoted
  have second : (b == backslash) = false := beq_eq_false_iff_ne.mpr unescaped
  rw [readPieces.eq_def]
  simp only [first,second]
  rfl

theorem hex4?_eq_none (a b c d : UInt8) (other : [a,b,c,d].all isHex = false) : hex4? a b c d = none := by
  simp only [List.all_cons,List.all_nil,isHex,Bool.and_true,Bool.and_eq_false_iff,Option.isSome_eq_false_iff,
    Option.isNone_iff_eq_none] at other
  rcases other with none | none | none | none
  all_goals simp [hex4?,none]

/-- A digit that is none stays among the first four, however many follow. -/
theorem readPieces_strange_code (short more : Bytes) (few : short.length < 4) (strange : short.all isHex = false) :
    readPieces (backslash :: 0x75 :: (short ++ more)) = .malformed := by
  by_cases long : (short ++ more).length < 4
  · rw [readPieces_short_code _ long,List.all_append,strange]
    rfl
  · obtain ⟨h₁,h₂,h₃,h₄,rest,whole⟩ : ∃ h₁ h₂ h₃ h₄ rest, short ++ more = h₁ :: h₂ :: h₃ :: h₄ :: rest := by
      match all : short ++ more with
      | [] | [_] | [_,_] | [_,_,_] => simp [all] at long
      | h₁ :: h₂ :: h₃ :: h₄ :: rest => exact ⟨h₁,h₂,h₃,h₄,rest,rfl⟩
    have start : short <+: [h₁,h₂,h₃,h₄] := by
      refine List.prefix_of_prefix_length_le (List.prefix_append short more) ⟨rest,whole.symm⟩ ?_
      simpa using Nat.le_of_lt few
    have among : [h₁,h₂,h₃,h₄].all isHex = false := by
      obtain ⟨others,same⟩ := start
      rw [← same,List.all_append,strange]
      rfl
    rw [whole,readPieces_code,hex4?_eq_none _ _ _ _ among]

theorem readPieces_kept (text more : Bytes) :
    Kept (fun _ => true) more (readPieces text) (readPieces (text ++ more)) := by
  fun_induction readPieces text with
  | case1 => trivial
  | case2 b rest closes =>
    obtain rfl := eq_of_beq closes
    rw [List.cons_append,readPieces_quote]
    exact kept_done _ _ _
  | case3 => trivial
  | case4 b _ escapes e unicode h₁ h₂ h₃ h₄ rest n code ih =>
    obtain rfl := eq_of_beq escapes
    obtain rfl := eq_of_beq unicode
    simp only [List.cons_append,readPieces_code,code]
    exact ih.map _
  | case5 b _ escapes e unicode h₁ h₂ h₃ h₄ rest code =>
    obtain rfl := eq_of_beq escapes
    obtain rfl := eq_of_beq unicode
    simp only [List.cons_append,readPieces_code,code]
    rfl
  | case6 => trivial
  | case7 b _ escapes e unicode short few strange =>
    obtain rfl := eq_of_beq escapes
    obtain rfl := eq_of_beq unicode
    have length : short.length < 4 := by
      match short with
      | [] | [_] | [_,_] | [_,_,_] => simp
      | h₁ :: h₂ :: h₃ :: h₄ :: rest => exact (few h₁ h₂ h₃ h₄ rest rfl).elim
    exact readPieces_strange_code short more length (by simpa using strange)
  | case8 b _ escapes e rest plain x letter ih =>
    obtain rfl := eq_of_beq escapes
    rw [List.cons_append,List.cons_append,readPieces_letter e _ (by simpa using plain),letter]
    exact ih.map _
  | case9 b _ escapes e rest plain letter =>
    obtain rfl := eq_of_beq escapes
    rw [List.cons_append,List.cons_append,readPieces_letter e _ (by simpa using plain),letter]
    rfl
  | case10 b rest unquoted unescaped control =>
    rw [List.cons_append,readPieces_plain b _ (by simpa using unquoted) (by simpa using unescaped),if_pos control]
    rfl
  | case11 b rest unquoted unescaped printable ih =>
    rw [List.cons_append,readPieces_plain b _ (by simpa using unquoted) (by simpa using unescaped),if_neg printable]
    exact ih.map _

theorem readString_kept (text more : Bytes) :
    Kept (fun _ => true) more (readString text) (readString (text ++ more)) := (readPieces_kept text more).map _

end Strings

section Numbers

theorem readDigits_kept (text more : Bytes) :
    Kept (fun _ => false) more (readDigits text) (readDigits (text ++ more)) := by
  cases text with
  | nil => trivial
  | cons b text =>
    rw [List.cons_append,readDigits,readDigits,← List.cons_append]
    refine kept_if _ (fun _ => ?_) (fun _ => rfl)
    rintro (final | stops)
    · simp at final
    · have short : ((b :: text).takeWhile isDigit).length ≠ (b :: text).length := by
        intro whole
        have split := congrArg List.length (List.takeWhile_append_dropWhile (p := isDigit) (l := b :: text))
        rw [List.length_append,whole] at split
        exact stops (List.length_eq_zero_iff.mp (by omega))
      have left : ((b :: text).dropWhile isDigit).isEmpty = false := by simpa using stops
      rw [List.takeWhile_append,List.dropWhile_append,if_neg short,left]
      rfl

theorem readWhole_kept (text more : Bytes) :
    Kept (fun _ => false) more (readWhole text) (readWhole (text ++ more)) := by
  cases text with
  | nil => trivial
  | cons b text =>
    rw [List.cons_append,readWhole,readWhole]
    exact kept_if _ (fun _ => kept_done _ _ _) (fun _ => readDigits_kept (b :: text) more)

theorem readFraction_kept (text more : Bytes) :
    Kept (fun _ => false) more (readFraction text) (readFraction (text ++ more)) := by
  cases text with
  | nil => simp [readFraction,Kept]
  | cons b text =>
    by_cases point : b = dot
    · subst b
      exact (readDigits_kept text more).map _
    · have other (rest : Bytes) : readFraction (b :: rest) = .done [] (b :: rest) := by
        simp [readFraction,point]
      rw [List.cons_append,other,other]
      exact kept_done _ _ _

theorem readExponent_kept (text more : Bytes) :
    Kept (fun _ => false) more (readExponent text) (readExponent (text ++ more)) := by
  cases text with
  | nil => simp [readExponent,Kept]
  | cons b text =>
    rw [List.cons_append,readExponent.eq_def (b :: text),readExponent.eq_def (b :: (text ++ more))]
    refine kept_if _ (fun _ => ?_) (fun _ => kept_done _ _ _)
    cases text with
    | nil => trivial
    | cons sign text =>
      exact kept_if _ (fun _ => (readDigits_kept text more).map _) fun _ => (readDigits_kept (sign :: text) more).map _

theorem readUnsigned_kept (text more : Bytes) :
    Kept (fun _ => false) more (readUnsigned text) (readUnsigned (text ++ more)) := by
  refine (readWhole_kept text more).bind (fun whole rest _ => ?_) (by simp [readFraction,readExponent,Kept,Reading.bind,Reading.map])
  exact (readFraction_kept rest more).bind (fun fraction rest _ => (readExponent_kept rest more).map _)
    (by simp [readExponent,Kept,Reading.map])

theorem readNumber_kept (text more : Bytes) :
    Kept (fun _ => false) more (readNumber text) (readNumber (text ++ more)) := by
  cases text with
  | nil => trivial
  | cons b text =>
    by_cases minus : b = dash
    · subst b
      exact (readUnsigned_kept text more).map _
    · have other (rest : Bytes) : readNumber (b :: rest) = readUnsigned (b :: rest) := by
        simp [readNumber,minus]
      rw [List.cons_append,other,other]
      exact readUnsigned_kept (b :: text) more

end Numbers

theorem readWord_kept (value : Json) (word text more : Bytes) :
    Kept (fun _ => true) more (readWord value word text) (readWord value word (text ++ more)) := by
  induction word generalizing text with
  | nil => exact kept_done _ _ _
  | cons w word ih =>
    cases text with
    | nil => trivial
    | cons b text => exact kept_if _ (fun _ => ih text) fun _ => rfl

section Values

/-- Reading with some fuel agrees with reading more text with more fuel. -/
structure Steady (more : Bytes) (fuel larger : Nat) : Prop where
  value : ∀ depth text, Kept isContainer more (readValue fuel depth text) (readValue larger depth (text ++ more))
  elements : ∀ depth text,
    Kept (fun _ => true) more (readElements fuel depth text) (readElements larger depth (text ++ more))
  members : ∀ depth text,
    Kept (fun _ => true) more (readMembers fuel depth text) (readMembers larger depth (text ++ more))

namespace Steady

variable {more : Bytes} {fuel larger : Nat}

theorem value_succ (steady : Steady more fuel larger) (depth : Nat) (text : Bytes) :
    Kept isContainer more (readValue (fuel + 1) depth text) (readValue (larger + 1) depth (text ++ more)) := by
  rw [readValue,readValue]
  cases found : skipSpace text with
  | nil => trivial
  | cons b rest =>
    rw [skipSpace_append text more b rest found]
    refine kept_if _ (fun _ => ((readString_kept rest more).mono (by simp)).map _) fun _ => ?_
    refine kept_if _ (fun _ => ?_) fun _ => ?_
    · refine kept_if _ (fun _ => rfl) fun _ => ?_
      cases opened : skipSpace rest with
      | nil => trivial
      | cons c after =>
        rw [skipSpace_append rest more c after opened]
        exact kept_if _ (fun _ => kept_done _ _ _) fun _ => (steady.members (depth + 1) (c :: after)).map _
    refine kept_if _ (fun _ => ?_) fun _ => ?_
    · refine kept_if _ (fun _ => rfl) fun _ => ?_
      cases opened : skipSpace rest with
      | nil => trivial
      | cons c after =>
        rw [skipSpace_append rest more c after opened]
        exact kept_if _ (fun _ => kept_done _ _ _) fun _ => (steady.elements (depth + 1) (c :: after)).map _
    refine kept_if _ (fun _ => (readWord_kept _ _ rest more).mono (by simp)) fun _ => ?_
    refine kept_if _ (fun _ => (readWord_kept _ _ rest more).mono (by simp)) fun _ => ?_
    refine kept_if _ (fun _ => (readWord_kept _ _ rest more).mono (by simp)) fun _ => ?_
    exact kept_if _ (fun _ => (readNumber_kept (b :: rest) more).map _) fun _ => rfl

theorem elements_succ (steady : Steady more fuel larger) (depth : Nat) (text : Bytes) :
    Kept (fun _ => true) more (readElements (fuel + 1) depth text) (readElements (larger + 1) depth (text ++ more)) := by
  rw [readElements,readElements]
  apply (steady.value depth text).bind
  · intro value rest _
    cases found : skipSpace rest with
    | nil => trivial
    | cons b after =>
      rw [skipSpace_append rest more b after found]
      refine kept_if _ (fun _ => (steady.elements depth after).map _) fun _ => ?_
      exact kept_if _ (fun _ => kept_done _ _ _) fun _ => rfl
  · intro value reading
    trivial

theorem members_succ (steady : Steady more fuel larger) (depth : Nat) (text : Bytes) :
    Kept (fun _ => true) more (readMembers (fuel + 1) depth text) (readMembers (larger + 1) depth (text ++ more)) := by
  rw [readMembers,readMembers]
  cases found : skipSpace text with
  | nil => trivial
  | cons b rest =>
    rw [skipSpace_append text more b rest found]
    refine kept_if _ (fun _ => ?_) fun _ => rfl
    apply (readString_kept rest more).bind
    · intro key rest _
      cases separated : skipSpace rest with
      | nil => trivial
      | cons b after =>
        rw [skipSpace_append rest more b after separated]
        refine kept_if _ (fun _ => ?_) fun _ => rfl
        apply (steady.value depth after).bind
        · intro value rest _
          cases ended : skipSpace rest with
          | nil => trivial
          | cons b after =>
            rw [skipSpace_append rest more b after ended]
            refine kept_if _ (fun _ => (steady.members depth after).map _) fun _ => ?_
            exact kept_if _ (fun _ => kept_done _ _ _) fun _ => rfl
        · intro value reading
          trivial
    · intro key reading
      trivial

end Steady

theorem steady (more : Bytes) (fuel larger : Nat) (enough : fuel ≤ larger) : Steady more fuel larger := by
  induction fuel generalizing larger with
  | zero =>
    constructor
    · intro depth text
      rw [readValue]
      trivial
    · intro depth text
      rw [readElements]
      trivial
    · intro depth text
      rw [readMembers]
      trivial
  | succ fuel ih =>
    obtain ⟨less,rfl⟩ : ∃ less, larger = less + 1 := ⟨larger - 1,by omega⟩
    have inner := ih less (Nat.le_of_succ_le_succ enough)
    exact ⟨inner.value_succ,inner.elements_succ,inner.members_succ⟩

end Values

/-- Reading a stream of which more follows. -/
theorem read_kept (text more : Bytes) : Kept isContainer more (read text) (read (text ++ more)) := by
  have enough : 2 * text.length + 2 ≤ 2 * (text ++ more).length + 2 := by
    rw [List.length_append]
    omega
  exact (steady more _ _ enough).value 0 text

end SqlTidy.Json
