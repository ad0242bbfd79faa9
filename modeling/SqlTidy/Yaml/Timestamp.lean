import SqlTidy.Text.Ascii

/-! Dates and times as plain scalars: `2024-5-17`, and after a date a time of the day, with a
zone behind a letter or without one behind blanks. -/
namespace SqlTidy.Yaml.Timestamp
open Ascii

def digit (b : UInt8) : Nat := b.toNat - zero.toNat

def number? : Bytes → Option (Nat × Bytes)
  | a :: b :: rest =>
    if !isDigit a then none
    else if isDigit b then some (10 * digit a + digit b, rest)
    else some (digit a, b :: rest)
  | [a] => if isDigit a then some (digit a, []) else none
  | [] => none

def after? (mark : UInt8) : Bytes → Option Bytes
  | b :: rest => if b == mark then some rest else none
  | [] => none

def isLeap (year : Nat) : Bool := year % 4 == 0 && (year % 100 != 0 || year % 400 == 0)

def daysIn (year month : Nat) : Nat :=
  if month == 2 then (if isLeap year then 29 else 28)
  else if month == 4 || month == 6 || month == 9 || month == 11 then 30
  else 31

def afterDate? (text : Bytes) : Option Bytes := do
  let year := text.takeWhile isDigit
  if year.length != 4 then none
  let (month, rest) ← number? (← after? dash (text.drop 4))
  let (day, rest) ← number? (← after? dash rest)
  let days := daysIn (year.foldl (fun n b => 10 * n + digit b) 0) month
  if 1 ≤ month && month ≤ 12 && 1 ≤ day && day ≤ days then some rest else none

def afterFraction : Bytes → Bytes
  | mark :: b :: rest =>
    if (mark == dot || mark == comma) && isDigit b then rest.dropWhile isDigit else mark :: b :: rest
  | text => text

def afterTime? (text : Bytes) : Option Bytes := do
  let (hour, rest) ← number? text
  let (minute, rest) ← number? (← after? colon rest)
  let (second, rest) ← number? (← after? colon rest)
  if hour < 24 && minute < 60 && second < 60 then some (afterFraction rest) else none

def isZone : Bytes → Bool
  | [0x5A] => true
  | [sign, a, b, 0x3A, c, d] =>
    (sign == plus || sign == dash) && [a, b, c, d].all isDigit && 10 * digit a + digit b ≤ 24 && 10 * digit c + digit d ≤ 60
  | _ => false

def isTimestamp (text : Bytes) : Bool :=
  match afterDate? text with
  | none => false
  | some [] => true
  | some (0x20 :: rest) => afterTime? (rest.dropWhile (· == space)) == some []
  | some (mark :: rest) => (mark == 0x54 || mark == 0x74) && (afterTime? rest).any isZone

end SqlTidy.Yaml.Timestamp
