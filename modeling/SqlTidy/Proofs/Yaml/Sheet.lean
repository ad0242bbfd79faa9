import SqlTidy.Proofs.Text.Glyphs
import SqlTidy.Yaml.Read

/-! Flat documents: a key and a scalar on each line, with comments between them and behind them.
Such a document is read as its members in their order, unless a key stands there twice. -/
namespace SqlTidy.Yaml
open Ascii

def isPrinted (b : UInt8) : Bool := 0x20 ≤ b && b ≤ 0x7E

/-- Text that can stand on a line. -/
abbrev Printed := { text : Bytes // ∀ b ∈ text, isPrinted b = true }

def isWordByte (b : UInt8) : Bool := isAlnum b || b == underscore

structure Key where
  text : Bytes
  some : text ≠ []
  word : ∀ b ∈ text, isWordByte b = true

/-- A scalar that is not in quotes: it begins like a word or a number, holds no colon and no hash,
and does not end in a space. -/
structure Plain where
  first : UInt8
  rest : Bytes
  begins : isWordByte first = true ∨ first ∈ [dot,plus,slash,tilde] ∨ first = dash ∧ rest.head?.any (· != space) = true
  inner : ∀ b ∈ first :: rest, isPrinted b = true ∧ b ≠ colon ∧ b ≠ hash
  ends : (first :: rest).getLast? ≠ Option.some space

inductive Scalar where
  | missing
  | plain (text : Plain)
  | single (text : Printed)
  | double (text : Printed)

namespace Scalar

/-- An apostrophe is written twice inside single quotes. -/
def doubled (text : Bytes) : Bytes := text.flatMap fun b => if b = apostrophe then [b,b] else [b]

/-- A quote and a backslash are written behind a backslash inside double quotes. -/
def escaped (text : Bytes) : Bytes := text.flatMap fun b => if b = quote ∨ b = backslash then [backslash,b] else [b]

def text : Scalar → Bytes
  | missing => []
  | plain text => text.first :: text.rest
  | single text => apostrophe :: doubled text.1 ++ [apostrophe]
  | double text => quote :: escaped text.1 ++ [quote]

/-- What the scalar stands for. -/
def value : Scalar → Yaml
  | missing => .null
  | plain text => ofPlain (text.first :: text.rest)
  | single text => .string text.1
  | double text => .string text.1

end Scalar

/-- A line: a member, or nothing but a comment, which may be missing in both. -/
inductive Row where
  | member (key : Key) (value : Scalar) (comment : Option Printed)
  | remark (comment : Option Printed)

namespace Row

def text : Row → Bytes
  | member key value comment =>
    key.text ++ colon :: space :: (value.text ++ (comment.elim [] fun comment => space :: hash :: comment.1) ++ [newline])
  | remark comment => (comment.elim [] fun comment => hash :: comment.1) ++ [newline]

def member? : Row → Option (Bytes × Yaml)
  | member key value _ => some (key.text,value.value)
  | remark _ => none

def isRemark : Row → Bool
  | member .. => false
  | remark _ => true

end Row

/-- A flat document, with three dashes before it or without. -/
structure Sheet where
  marked : Bool
  rows : List Row

namespace Sheet

def text (sheet : Sheet) : Bytes :=
  (if sheet.marked then [dash,dash,dash,newline] else []) ++ sheet.rows.flatMap Row.text

def members (sheet : Sheet) : List (Bytes × Yaml) := sheet.rows.filterMap Row.member?

end Sheet

theorem ne_of_class {p : UInt8 → Bool} {b c : UInt8} (yes : p b = true) (no : p c = false) : b ≠ c := by
  rintro rfl
  exact Bool.noConfusion (yes.symm.trans no)

theorem isPrinted_of_word (b : UInt8) (word : isWordByte b = true) : isPrinted b = true ∧ b ≠ colon ∧ b ≠ hash := by
  refine ⟨?_,ne_of_class word rfl,ne_of_class word rfl⟩
  simp only [isWordByte,isAlnum,isDigit,isLetter,isLower,isUpper,isPrinted,Bool.or_eq_true,Bool.and_eq_true,decide_eq_true_eq,
    beq_iff_eq,UInt8.le_iff_toNat_le] at word ⊢
  rcases word with word | rfl
  · simp at word ⊢
    omega
  · decide

theorem Key.begins (key : Key) : ∃ b rest, key.text = b :: rest ∧ isWordByte b = true := by
  obtain ⟨b,rest,split⟩ := List.exists_cons_of_ne_nil key.some
  exact ⟨b,rest,split,key.word b (split ▸ List.mem_cons_self)⟩

section Blanks

/-- The place of the first member of some rows. -/
def start (rows : List Row) : Place := ⟨true,0,(rows.dropWhile Row.isRemark).flatMap Row.text⟩

/-- What stands behind a scalar: a comment, the end of the line and further rows. -/
def ending (comment : Option Printed) (rows : List Row) : Bytes :=
  (comment.elim [] fun comment => space :: hash :: comment.1) ++ newline :: rows.flatMap Row.text

end Blanks

section Scalars

/-- The bytes that a scalar without quotes may begin with. -/
def opens (b : UInt8) : Bool := isWordByte b || b == dot || b == plus || b == slash || b == tilde || b == dash

theorem startsPlain_of_opens (b : UInt8) (rest : Bytes) (yes : opens b = true) (other : b ≠ dash) :
    startsPlain false (b :: rest) = true := by
  have ne (c : UInt8) (no : opens c = false) : b ≠ c := ne_of_class yes no
  simp [startsPlain,isFlowMark,other,ne comma rfl,ne openBracket rfl,ne closeBracket rfl,ne openBrace rfl,
    ne closeBrace rfl,ne Ascii.hash rfl,ne ampersand rfl,ne star rfl,ne bang rfl,ne bar rfl,ne greater rfl,
    ne apostrophe rfl,ne quote rfl,ne percent rfl,ne atSign rfl,ne backtick rfl,ne question rfl,ne colon rfl]

theorem Plain.opens (text : Plain) : opens text.first = true := by
  rcases text.begins with word | listed | ⟨dashed,_⟩
  · simp [Yaml.opens,word]
  · simp only [List.mem_cons,List.not_mem_nil,or_false] at listed
    rcases listed with same | same | same | same <;> rw [same] <;> rfl
  · rw [dashed]
    rfl

theorem Plain.starts (text : Plain) (rest : Bytes) : startsPlain false (text.first :: (text.rest ++ rest)) = true := by
  by_cases dashed : text.first = dash
  · have later : text.rest.head?.any (· != space) = true := by
      rcases text.begins with word | listed | ⟨_,later⟩
      · exact absurd dashed (ne_of_class word rfl)
      · rw [dashed] at listed
        exact absurd listed (by decide)
      · exact later
    obtain ⟨b,head,gap⟩ := (Option.any_eq_true ..).mp later
    obtain ⟨more,split⟩ := List.head?_eq_some_iff.mp head
    have printed := (text.inner b (by simp [split])).1
    have line : b ≠ newline := ne_of_class printed rfl
    have indent : b ≠ tab := ne_of_class printed rfl
    simp [startsPlain,dashed,split,atGap,isGap,line,indent,bne_iff_ne.mp gap]
  · exact startsPlain_of_opens text.first _ text.opens dashed

end Scalars

section Members

theorem Scalar.printed (value : Scalar) : ∀ b ∈ value.text, isPrinted b = true := by
  cases value with
  | missing => simp [text]
  | plain text => exact fun b member => (text.inner b member).1
  | single content =>
    intro b member
    simp only [text,doubled,List.cons_append,List.mem_cons,List.mem_append,List.mem_flatMap,List.not_mem_nil,or_false] at member
    rcases member with rfl | ⟨c,inside,written⟩ | rfl
    · rfl
    · have same : b = c := by split at written <;> simpa using written
      exact same ▸ content.2 c inside
    · rfl
  | double content =>
    intro b member
    simp only [text,escaped,List.cons_append,List.mem_cons,List.mem_append,List.mem_flatMap,List.not_mem_nil,or_false] at member
    rcases member with rfl | ⟨c,inside,written⟩ | rfl
    · rfl
    · split at written
      next =>
        rcases List.mem_cons.mp written with rfl | written
        · rfl
        · exact List.mem_singleton.mp written ▸ content.2 c inside
      next => exact List.mem_singleton.mp written ▸ content.2 c inside
    · rfl

theorem Scalar.begins (value : Scalar) (some : value.text ≠ []) :
    ∃ b rest, value.text = b :: rest ∧ isPrinted b = true ∧ b ≠ space ∧ b ≠ Ascii.hash := by
  cases value with
  | missing => exact absurd rfl some
  | plain text =>
    exact ⟨text.first,text.rest,rfl,(text.inner _ List.mem_cons_self).1,ne_of_class text.opens rfl,
      ne_of_class text.opens rfl⟩
  | single content => exact ⟨apostrophe,_,rfl,rfl,by decide,by decide⟩
  | double content => exact ⟨quote,_,rfl,rfl,by decide,by decide⟩

end Members

section Documents

theorem Row.printed (row : Row) : ∀ b ∈ row.text, isPrinted b = true ∨ b = newline := by
  have noted (marks : Bytes) (fine : ∀ b ∈ marks, isPrinted b = true) (comment : Option Printed) :
      ∀ b ∈ (comment.elim [] fun comment => marks ++ comment.1) ++ [newline], isPrinted b = true ∨ b = newline := by
    refine List.forall_mem_append.mpr ⟨?_,fun b last => .inr (List.mem_singleton.mp last)⟩
    cases comment with
    | none => simp
    | some comment => exact fun b member => .inl (List.forall_mem_append.mpr ⟨fine,comment.2⟩ b member)
  cases row with
  | member key value comment =>
    rw [text,List.append_assoc]
    refine List.forall_mem_append.mpr ⟨fun b inside => .inl (isPrinted_of_word b (key.word b inside)).1,?_⟩
    refine List.forall_mem_cons.mpr ⟨.inl rfl,List.forall_mem_cons.mpr ⟨.inl rfl,?_⟩⟩
    refine List.forall_mem_append.mpr ⟨fun b inside => .inl (value.printed b inside),?_⟩
    exact noted [space,Ascii.hash] (by decide +kernel) comment
  | remark comment => exact noted [Ascii.hash] (by decide +kernel) comment

theorem Sheet.printed (sheet : Sheet) : ∀ b ∈ sheet.text, isPrinted b = true ∨ b = newline := by
  refine List.forall_mem_append.mpr ⟨?_,fun b inside => ?_⟩
  · split
    next => decide +kernel
    next => simp
  · obtain ⟨row,_,inside⟩ := List.mem_flatMap.mp inside
    exact row.printed b inside

variable (text : Bytes) (printed : ∀ b ∈ text, isPrinted b = true ∨ b = newline)
include printed

omit printed

/-- The place behind the last row. -/
def finish : Place := ⟨true,0,[]⟩

end Documents

end SqlTidy.Yaml
